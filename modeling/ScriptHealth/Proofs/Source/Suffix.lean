import ScriptHealth.Proofs.Graph.Respelling
import ScriptHealth.Proofs.Workspace.Parent
import Mathlib.Data.List.TakeWhile

/-!
# Two rules for the extension of a file

A file is selected by the extension of its name, and later it is treated by the extension of its
path. Both rules cut the name at its last dot. They differ in what has to stand around that dot: for
a name it is something other than dots before it, for a path it is anything before it and anything
behind it. A name that does not start with a dot meets the conditions before the dot whenever it has
a dot at all, so for such names the rules differ only if nothing follows the last dot.

## Main results

* `Path.splitDot_append` — a name is cut at its last dot
* `Path.suffix_eq_nameSuffix_iff` — on which visible names the rules agree
* `Path.name_append`, `Path.name_slashes_append` — the last name of a path, in both spellings
-/

namespace ScriptHealth

namespace Path

open Text

variable {front n p stem tail : List Char}

/-! ### The last dot -/

/-- A name is cut at its last dot. -/
theorem splitDot_append (h : '.' ∉ tail) :
    splitDot (stem ++ '.' :: tail) = some (stem, '.' :: tail) := by
  have htail : (stem ++ '.' :: tail).reverse.takeWhile (· != '.') = tail.reverse := by
    rw [List.reverse_append, List.reverse_cons, List.append_assoc, List.takeWhile_append_of_pos]
    · simp
    · intro c hc
      have hne : c ≠ '.' := fun hdot => h (hdot ▸ List.mem_reverse.mp hc)
      simpa using hne
  have hlength : (stem ++ '.' :: tail).length = stem.length + (tail.length + 1) := by simp
  have hstem : (stem ++ '.' :: tail).length - tail.length - 1 = stem.length := by omega
  unfold splitDot
  rw [htail, List.reverse_reverse, if_pos (by omega), hstem, List.take_left]

theorem splitDot_of_notMem (h : '.' ∉ n) : splitDot n = none := by
  have htail : n.reverse.takeWhile (· != '.') = n.reverse := by
    rw [List.takeWhile_eq_self_iff]
    intro c hc
    have hne : c ≠ '.' := fun hdot => h (hdot ▸ List.mem_reverse.mp hc)
    simpa using hne
  unfold splitDot
  rw [htail]
  simp

/-- A name has no dot, or it has a last one. -/
theorem exists_last_dot (n : List Char) :
    '.' ∉ n ∨ ∃ stem tail, n = stem ++ '.' :: tail ∧ '.' ∉ tail := by
  by_cases hdot : '.' ∈ n
  · -- the last dot is the first one from behind
    obtain ⟨tail, stem, hn, htail⟩ := List.eq_append_cons_of_mem (List.mem_reverse.mpr hdot)
    refine .inr ⟨stem.reverse, tail.reverse, ?_, by simpa using htail⟩
    rw [← List.reverse_reverse n, hn]
    simp
  · exact .inl hdot

/-! ### The two rules -/

/-- The extension of a path, in terms of that of its last name: a visible name loses an extension
that is nothing but a dot. -/
theorem suffix_of_visible (hname : name p = n) (hvisible : n.head? ≠ some '.') :
    suffix p = if nameSuffix n = here then [] else nameSuffix n := by
  unfold suffix nameSuffix
  rw [hname]
  rcases exists_last_dot n with hdot | ⟨stem, tail, rfl, htail⟩
  · rw [splitDot_of_notMem hdot]
    simp [here]
  · -- what stands before the last dot starts like the name, so not with a dot
    obtain ⟨c, rest, rfl⟩ : ∃ c rest, stem = c :: rest := by
      refine List.exists_cons_of_ne_nil ?_
      rintro rfl
      exact hvisible rfl
    have hc : c ≠ '.' := fun h => hvisible (congrArg some h)
    rw [splitDot_append htail]
    simp [hc]

/-- The two rules agree on a visible name unless it ends with a dot. -/
theorem suffix_eq_nameSuffix_iff (hname : name p = n) (hvisible : n.head? ≠ some '.') :
    suffix p = nameSuffix n ↔ nameSuffix n ≠ here := by
  rw [suffix_of_visible hname hvisible]
  constructor
  · rintro h hdot
    rw [if_pos hdot, hdot] at h
    exact nomatch h
  · exact fun h => if_neg h

/-! ### The last name of a path -/

/-- What a name follows in a path: nothing, or something that ends with a slash. -/
def IsFolderPart (front : List Char) : Prop := front = [] ∨ ∃ folder, front = folder ++ ['/']

/-- The last name of a path. -/
theorem name_append (hfront : IsFolderPart front) (hn : IsNamed n) : name (front ++ n) = n := by
  unfold name
  rcases hfront with rfl | ⟨folder, rfl⟩
  · rw [List.nil_append, hn.namedSegments_eq]
    rfl
  · have hnamed : namedSegments (folder ++ ['/'] ++ n) = namedSegments folder ++ [n] := by
      have hsegments : segments (folder ++ ['/'] ++ n) = segments folder ++ segments n := by
        rw [List.append_assoc]
        exact splitAt_append_cons '/' folder n
      rw [namedSegments, hsegments, List.filter_append]
      exact congrArg _ hn.namedSegments_eq
    rw [hnamed, List.getLast?_concat]
    rfl

/-- A name without a backslash stays the last one when backslashes are written as slashes. -/
theorem name_slashes_append (hfront : IsFolderPart front) (hn : IsNamed n) (hback : '\\' ∉ n) :
    name (slashes (front ++ n)) = n := by
  have hslashes : IsFolderPart (slashes front) := by
    rcases hfront with rfl | ⟨folder, rfl⟩
    · exact .inl rfl
    · exact .inr ⟨slashes folder, slashes_append folder ['/']⟩
  rw [slashes_append, slashes_eq_self hback]
  exact name_append hslashes hn

end Path

/-- The path of a location ends with its last name. -/
theorem Location.exists_toList_intercalate (folders : Location) (name : String) :
    ∃ front, ("/".intercalate (folders ++ [name])).toList = front ++ name.toList ∧
      Path.IsFolderPart front := by
  have hpath : ("/".intercalate (folders ++ [name])).toList =
      Text.joinWith ['/'] (folders.map String.toList ++ [name.toList]) := by
    rw [String.toList_intercalate, Text.joinWith_eq_intercalate, List.map_append]
    rfl
  by_cases hfolders : folders = []
  · subst hfolders
    exact ⟨[], hpath, .inl rfl⟩
  · refine ⟨_, ?_, .inr ⟨Text.joinWith ['/'] (folders.map String.toList), rfl⟩⟩
    rw [hpath, Text.joinWith_append (by simpa using hfolders) (List.cons_ne_nil _ _)]
    rfl

end ScriptHealth
