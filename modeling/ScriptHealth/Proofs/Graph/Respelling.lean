import ScriptHealth.Proofs.Graph.Reach
import Mathlib.Logic.Relation

/-!
# Respellings of a specifier

The same file can be imported by many specifiers. Segments that lead nowhere may be put in behind
any segment, slashes may be added at the end, and every slash may be written as a backslash. None of
this changes the paths that are looked up: where a specifier leads is read off the stack of its
segments, and each respelling leaves that stack as it is, whatever was on it before.

A rooted specifier and a specifier that starts in the directory of its importer are joined by two
different rules. They agree as long as the directory itself does not start at a root.

## Main definitions

* `Path.follow` — the stack that a path leads to from another one
* `Specifier.Idle` — segments that lead nowhere
* `Specifier.Respells` — one change of spelling
* `Specifier.ReadAlike` — specifiers that lead to the same from everywhere

## Main results

* `Specifier.Respells.readAlike` — one change of spelling
* `Specifier.ReadAlike.base_eq` — what is read alike is joined alike, to any directory
* `Specifier.base_here_eq_iff` — the two rules of joining
* `Specifier.candidates_independent_of_spelling` — any number of respellings, and rooted specifiers
-/

namespace ScriptHealth

namespace Path

open Text

variable {rooted : Bool} {stack : List (List Char)}

theorem slashes_append (p q : List Char) : slashes (p ++ q) = slashes p ++ slashes q :=
  List.map_append

theorem slashes_slashes (p : List Char) : slashes (slashes p) = slashes p :=
  slashes_eq_self fun h => slashes_ne_backslash h rfl

/-! ### Following a path -/

/-- The stack that a path leads to from another one. -/
def follow (rooted : Bool) (stack : List (List Char)) (p : List Char) : List (List Char) :=
  (segments p).foldl (pushSegment rooted) stack

/-- At a slash a path falls into two that are followed one after the other. -/
theorem follow_append_slash (p q : List Char) :
    follow rooted stack (p ++ '/' :: q) = follow rooted (follow rooted stack p) q := by
  unfold follow segments
  rw [splitAt_append_cons, List.foldl_append]

theorem follow_slash (q : List Char) : follow rooted stack ('/' :: q) = follow rooted stack q :=
  follow_append_slash [] q

theorem follow_of_notMem {s : List Char} (h : '/' ∉ s) :
    follow rooted stack s = pushSegment rooted stack s := by
  unfold follow segments
  rw [splitAt_of_notMem h, List.foldl_cons, List.foldl_nil]

theorem normalize_eq_follow (p : List Char) : normalize p =
    assemble (leadingSlashes p) (follow (leadingSlashes p != 0) [] p).reverse :=
  rfl

end Path

namespace Specifier

open ScriptHealth.Path Text

variable {rooted : Bool} {stack : List (List Char)} {s t dir : List Char}

/-! ### Joining to a directory -/

/-- The directory that a specifier is appended to, with the slash between the two. -/
def lead (dir : List Char) : List Char :=
  if dir = [] then here ++ ['/'] else if dir.getLast? = some '/' then dir else dir ++ ['/']

theorem join_eq_lead_append (hs : s.head? ≠ some '/') (dir : List Char) :
    join (if dir = [] then here else dir) s = lead dir ++ s := by
  unfold join lead
  rw [if_neg hs]
  by_cases hdir : dir = []
  · simp [hdir, here]
  · rw [if_neg hdir, if_neg hdir]
    simp only [hdir, false_or]
    split
    · rfl
    · rw [List.append_assoc, List.singleton_append]

/-- The slash behind a directory leads nowhere. -/
theorem follow_lead_append (dir s : List Char) :
    follow rooted stack (slashes (lead dir) ++ s) =
      follow rooted (follow rooted stack (slashes dir)) s := by
  have hslash (front : List Char) : slashes (front ++ ['/']) ++ s = slashes front ++ '/' :: s := by
    rw [slashes_append, List.append_assoc]
    rfl
  unfold lead
  by_cases hdir : dir = []
  · subst hdir
    rw [if_pos rfl, hslash, follow_append_slash]
    rfl
  · rw [if_neg hdir]
    split
    · -- the slash was there before, and stands in front of an empty segment
      rename_i hlast
      obtain ⟨front, rfl⟩ := List.getLast?_eq_some_iff.mp hlast
      have hend : slashes (front ++ ['/']) = slashes front ++ '/' :: [] := slashes_append _ _
      rw [hslash, follow_append_slash, hend, follow_append_slash]
      rfl
    · rw [hslash, follow_append_slash]

theorem head?_slashes_lead (dir : List Char) :
    (slashes (lead dir)).head? = some '/' ↔ (slashes dir).head? = some '/' := by
  unfold lead
  cases dir with
  | nil => simp [slashes, here]
  | cons c dir =>
    rw [if_neg (List.cons_ne_nil c dir)]
    split
    · rfl
    · rfl

/-- A rooted specifier is followed from the root. -/
theorem base_of_rooted (hs : (slashes s).head? = some '/') (dir : List Char) :
    base s dir = assemble 0 (follow false [] (slashes s)).reverse := by
  have hroot : base s dir = base s [] := by
    unfold base
    dsimp only
    rw [if_pos hs, if_pos hs]
  have hread : segmentsRead s [] = segments (slashes s) := if_pos hs
  rw [hroot, base_eq_assemble List.not_mem_nil (Or.inl hs), hread]
  rfl

theorem base_eq_normalize (hs : (slashes s).head? ≠ some '/') (dir : List Char) :
    base s dir = normalize (slashes (lead dir) ++ slashes s) := by
  unfold base
  dsimp only
  rw [if_neg hs, join_eq_lead_append hs, normal, slashes_append, slashes_slashes]

/-- Any other specifier is followed from where the directory of its importer leads. -/
theorem base_of_not_rooted (hs : (slashes s).head? ≠ some '/') (dir : List Char) {k : Nat}
    (hk : leadingSlashes (slashes (lead dir)) = k) :
    base s dir = assemble k
      (follow (k != 0) (follow (k != 0) [] (slashes dir)) (slashes s)).reverse := by
  rw [base_eq_normalize hs, normalize_eq_follow, leadingSlashes_append hs, hk, follow_lead_append]

/-! ### Changes of spelling -/

/-- A character that separates segments. -/
def IsSeparator (c : Char) : Prop := c = '/' ∨ c = '\\'

/-- Segments that lead nowhere: an empty one, one that stays, and a name that is left again. -/
inductive Idle : List Char → Prop
  | empty : Idle []
  | stay : Idle here
  | detour (x : List Char) {sep : Char} (hx : NamesEntry x) (hslash : '/' ∉ x) (hback : '\\' ∉ x)
      (hsep : IsSeparator sep) : Idle (x ++ sep :: up)

/-- One change of spelling: segments that lead nowhere are put in behind a segment, which ends at a
separator or with the specifier; a slash is added at the end; or a slash is turned. -/
inductive Respells : List Char → List Char → Prop
  | insert (front back : List Char) {idle : List Char} {sep : Char}
      (hplace : ∀ c ∈ back.head?, IsSeparator c) (hsep : IsSeparator sep) (hidle : Idle idle) :
      Respells (front ++ back) (front ++ sep :: (idle ++ back))
  | trailing (s : List Char) : Respells s (s ++ ['/'])
  | turn (front back : List Char) : Respells (front ++ '/' :: back) (front ++ '\\' :: back)

/-- Specifiers that are read alike: both from the root or both from the directory of the importer,
and to the same stack from any other one. -/
structure ReadAlike (s t : List Char) : Prop where
  rooted_iff : (slashes s).head? = some '/' ↔ (slashes t).head? = some '/'
  follow_eq : ∀ rooted stack, follow rooted stack (slashes s) = follow rooted stack (slashes t)

theorem slashes_separator_cons {sep : Char} (h : IsSeparator sep) (p : List Char) :
    slashes (sep :: p) = '/' :: slashes p := by
  rcases h with rfl | rfl <;> rfl

/-- Idle segments leave every stack as it is. -/
theorem Idle.follow_eq {idle : List Char} (h : Idle idle) :
    follow rooted stack (slashes idle) = stack := by
  cases h with
  | empty => rfl
  | stay => rfl
  | detour x hx hslash hback hsep =>
    have hup : slashes up = up := rfl
    have hnotMem : '/' ∉ up := by decide
    rw [slashes_append, slashes_separator_cons hsep, slashes_eq_self hback, hup,
      follow_append_slash, follow_of_notMem hslash, follow_of_notMem hnotMem, pushSegment_entry hx,
      pushSegment_up_of_ne hx.2.2]

/-- Behind a segment, idle segments may be put in. -/
theorem follow_insert {back idle : List Char} (hplace : ∀ c ∈ back.head?, IsSeparator c)
    (hidle : Idle idle) (front : List Char) :
    follow rooted stack (slashes front ++ '/' :: slashes (idle ++ back)) =
      follow rooted stack (slashes (front ++ back)) := by
  cases back with
  | nil => rw [follow_append_slash, List.append_nil, List.append_nil, hidle.follow_eq]
  | cons c back =>
    have hc : IsSeparator c := hplace c rfl
    rw [slashes_append, slashes_append, slashes_separator_cons hc, follow_append_slash,
      follow_append_slash, follow_append_slash, hidle.follow_eq]

/-- One change of spelling keeps what a specifier is read as. -/
theorem Respells.readAlike (h : Respells s t) (hs : s ≠ []) : ReadAlike s t := by
  cases h with
  | @insert front back idle sep hplace hsep hidle =>
    have ht : slashes (front ++ sep :: (idle ++ back)) =
        slashes front ++ '/' :: slashes (idle ++ back) := by
      rw [slashes_append, slashes_separator_cons hsep]
    refine ⟨?_, fun rooted stack => ?_⟩
    · cases front with
      | nil =>
        -- the first segment is empty, so both start with a separator
        obtain ⟨c, rest, rfl⟩ := List.exists_cons_of_ne_nil hs
        have hc : IsSeparator c := hplace c rfl
        rw [ht, List.nil_append, slashes_separator_cons hc]
        exact Iff.rfl
      | cons c front => exact Iff.rfl
    · rw [ht, follow_insert hplace hidle]
  | trailing =>
    refine ⟨?_, fun rooted stack => ?_⟩
    · obtain ⟨c, rest, rfl⟩ := List.exists_cons_of_ne_nil hs
      exact Iff.rfl
    · have ht : slashes (s ++ ['/']) = slashes s ++ '/' :: [] := slashes_append _ _
      rw [ht, follow_append_slash]
      rfl
  | turn front back =>
    have ht : slashes (front ++ '\\' :: back) = slashes (front ++ '/' :: back) := by
      rw [slashes_append, slashes_append]
      rfl
    exact ⟨by rw [ht], fun rooted stack => by rw [ht]⟩

theorem Respells.ne_nil (h : Respells s t) : t ≠ [] := by
  cases h <;> simp

/-- Any number of respellings keeps what a specifier is read as. -/
theorem readAlike_of_respelled (h : Relation.ReflTransGen Respells s t) (hs : s ≠ []) :
    ReadAlike s t := by
  induction h with
  | refl => exact ⟨Iff.rfl, fun _ _ => rfl⟩
  | @tail t u hst htu ih =>
    have ht : t ≠ [] := by
      rcases hst.cases_tail with rfl | ⟨r, -, hrt⟩
      · exact hs
      · exact hrt.ne_nil
    have hlast := htu.readAlike ht
    exact ⟨ih.rooted_iff.trans hlast.rooted_iff,
      fun rooted stack => (ih.follow_eq rooted stack).trans (hlast.follow_eq rooted stack)⟩

/-- What is read alike is joined alike. -/
theorem ReadAlike.base_eq (h : ReadAlike s t) (dir : List Char) : base s dir = base t dir := by
  by_cases hs : (slashes s).head? = some '/'
  · rw [base_of_rooted hs, base_of_rooted (h.rooted_iff.mp hs), h.follow_eq]
  · rw [base_of_not_rooted hs dir rfl, base_of_not_rooted (mt h.rooted_iff.mpr hs) dir rfl,
      h.follow_eq]

/-! ### Rooted specifiers -/

theorem head?_normalize {p : List Char} : (normalize p).head? = some '/' ↔ p.head? = some '/' := by
  rw [normalize_eq_assemble, head?_assemble _ fun _ => isNamed_of_mem_resolveSegments, Ne,
    leadingSlashes_eq_zero_iff, not_not]

/-- A rooted specifier is joined to a path of the project. -/
theorem head?_base_of_rooted (hs : (slashes s).head? = some '/') (dir : List Char) :
    (base s dir).head? ≠ some '/' := by
  have hnames : base s dir = assemble 0 (resolveSegments false (namedSegments (slashes s))) := by
    rw [base_of_rooted hs, namedSegments, resolveSegments_filter]
    rfl
  rw [hnames, Ne, head?_assemble 0 fun _ => isNamed_of_mem_resolveSegments]
  simp

/-- A specifier that starts in the directory of its importer leads to what the rooted specifier
leads to that names the directory first, unless the directory itself starts at a root. -/
theorem base_here_eq_iff (r dir other : List Char) :
    base (here ++ '/' :: r) dir = base ('/' :: (dir ++ '/' :: r)) other ↔
      (slashes dir).head? ≠ some '/' := by
  have hhere : slashes (here ++ '/' :: r) = here ++ '/' :: slashes r := rfl
  have hroot : slashes ('/' :: (dir ++ '/' :: r)) = '/' :: (slashes dir ++ '/' :: slashes r) :=
    congrArg ('/' :: ·) (slashes_append dir ('/' :: r))
  have hhereHead : (slashes (here ++ '/' :: r)).head? ≠ some '/' := by
    rw [hhere]
    simp [here]
  have hrootHead : (slashes ('/' :: (dir ++ '/' :: r))).head? = some '/' := rfl
  constructor
  · intro heq hdir
    have hhead : (base (here ++ '/' :: r) dir).head? = some '/' := by
      rw [base_eq_normalize hhereHead, head?_normalize, List.head?_append,
        (head?_slashes_lead dir).mpr hdir]
      rfl
    exact head?_base_of_rooted hrootHead other (heq ▸ hhead)
  · intro hdir
    have hzero : leadingSlashes (slashes (lead dir)) = 0 :=
      leadingSlashes_eq_zero_iff.mpr (mt (head?_slashes_lead dir).mp hdir)
    rw [base_of_not_rooted hhereHead dir hzero, base_of_rooted hrootHead, hhere, hroot,
      follow_slash, follow_append_slash, follow_append_slash]
    rfl

/-- The candidates are the same exactly if the joined paths are: the joined path comes first. -/
theorem candidates_eq_iff {s t d e : String} : candidates s d = candidates t e ↔
    base s.toList d.toList = base t.toList e.toList := by
  constructor
  · intro h
    have hfirst (s d : String) : (candidates s d).head? =
        some (String.ofList (base s.toList d.toList)) := by
      have hprobe : (probes s.toList d.toList).head? = some (base s.toList d.toList) := by
        have hnormal := normal_base s.toList d.toList
        simp [probes, endings, withTypedSpelling, hnormal]
      rw [candidates, List.head?_map, hprobe, Option.map_some]
    have hheads : some (String.ofList (base s.toList d.toList)) =
        some (String.ofList (base t.toList e.toList)) := by
      rw [← hfirst, ← hfirst, h]
    exact String.ofList_injective (Option.some.inj hheads)
  · intro h
    unfold candidates probes
    dsimp only
    rw [h]

/-- **Respellings.** The candidates of a specifier that starts with a dot or a slash do not depend
on how it is spelled: any number of idle segments behind its segments, slashes at its end and
turned slashes change nothing, in whatever directory it is read. And a specifier that starts in a
directory has the candidates of the rooted specifier behind that directory, wherever that one is
read, exactly if the directory starts with neither a slash nor a backslash. -/
theorem candidates_independent_of_spelling :
    (∀ s t d : String, isRelative s = true →
      Relation.ReflTransGen Respells s.toList t.toList → candidates t d = candidates s d) ∧
      ∀ r d e : String, candidates ("./" ++ r) d = candidates ("/" ++ d ++ "/" ++ r) e ↔
        (slashes d.toList).head? ≠ some '/' := by
  refine ⟨fun s t d hs h => ?_, fun r d e => ?_⟩
  · have hne : s.toList ≠ [] := by
      intro hnil
      rw [isRelative, hnil] at hs
      cases hs
    exact candidates_eq_iff.mpr ((readAlike_of_respelled h hne).base_eq d.toList).symm
  · rw [candidates_eq_iff, ← base_here_eq_iff r.toList d.toList e.toList]
    have hhere : ("./" ++ r).toList = here ++ '/' :: r.toList := String.toList_append
    have hroot : ("/" ++ d ++ "/" ++ r).toList = '/' :: (d.toList ++ '/' :: r.toList) := by
      simp [String.toList_append]
    rw [hhere, hroot]

/-- A page beside its importer: with a turned slash, an empty segment, a detour and a slash at the
end, and from the root. -/
theorem candidates_independent_of_spelling_page :
    candidates "./\\page/x/../" "src/ui" = candidates "./page" "src/ui" ∧
      candidates "./page" "src/ui" = candidates "/src/ui/page" "lib" := by
  have hturned : Respells "./page".toList ".\\page".toList := .turn ['.'] "page".toList
  have hempty : Respells ".\\page".toList "./\\page".toList :=
    .insert ['.'] "\\page".toList (by simp [IsSeparator]) (Or.inl rfl) .empty
  have hdetour : Respells "./\\page".toList "./\\page/x/..".toList :=
    .insert "./\\page".toList [] (by simp) (Or.inl rfl)
      (.detour ['x'] (by decide) (by decide) (by decide) (Or.inl rfl))
  have hslash : Respells "./\\page/x/..".toList "./\\page/x/../".toList := .trailing _
  constructor
  · exact candidates_independent_of_spelling.1 "./page" "./\\page/x/../" "src/ui" (by decide)
      (.tail (.tail (.tail (.single hturned) hempty) hdetour) hslash)
  · exact (candidates_independent_of_spelling.2 "page" "src/ui" "lib").mpr (by decide)

end Specifier

end ScriptHealth
