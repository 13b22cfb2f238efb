import ScriptHealth.Project.Output
import ScriptHealth.Proofs.Text.Encoding
import ScriptHealth.Proofs.Text.Paragraphs
import ScriptHealth.Proofs.Workspace.Destination
import Mathlib.Data.List.DropRight

/-!
# An entry of the list of ignored files

An entry is looked for among the lines between all line boundaries, but it is added behind a line
feed. Both agree on every text and every line end: what is added is found again, and the lines that
were there stay lines. Hence an entry is added at most once.

An empty entry would not do: behind a carriage return at the end of the file, the line feed that
ends it would become a part of the line end that is there already.

## Main definitions

* `Project.Names` — a line of the list that says an entry

## Main results

* `Project.isIgnored_iff` — an entry is found exactly if a line says it
* `Project.ensureIgnored_adds_once` — adding an entry
-/

namespace ScriptHealth

namespace Project

open Workspace

variable {w after : Workspace} {root entry : String} {content : ByteArray}
variable {text line target : List Char}

/-! ### Lines that say an entry -/

/-- A line says an entry, up to slashes at the end of both and a slash in front of the entry. -/
def Names (line entry : List Char) : Prop :=
  ∃ a b, line ++ List.replicate a '/' = entry ++ List.replicate b '/' ∨
    line ++ List.replicate a '/' = '/' :: entry ++ List.replicate b '/'

theorem Names.refl (entry : List Char) : Names entry entry := ⟨0, 0, Or.inl rfl⟩

theorem exists_eq_bareEntry_append (s : List Char) :
    ∃ n, s = bareEntry s ++ List.replicate n '/' := by
  have hslashes : ∀ c ∈ s.rtakeWhile (· == '/'), c = '/' :=
    fun c hc => beq_iff_eq.mp (List.mem_rtakeWhile_imp (p := (· == '/')) hc)
  refine ⟨(s.rtakeWhile (· == '/')).length, ?_⟩
  rw [← List.eq_replicate_length.mpr hslashes]
  exact (List.rdropWhile_append_rtakeWhile ..).symm

theorem bareEntry_append_slashes (s : List Char) (n : Nat) :
    bareEntry (s ++ List.replicate n '/') = bareEntry s := by
  induction n with
  | zero => rw [List.replicate_zero, List.append_nil]
  | succ n ih =>
    rw [List.replicate_succ', ← List.append_assoc, ← ih]
    exact List.rdropWhile_concat_pos _ _ _ (by decide)

/-- A slash in front is seen, unless there are slashes only. -/
theorem bareEntry_cons_slash (s : List Char) :
    bareEntry ('/' :: s) = bareEntry s ∨ bareEntry ('/' :: s) = '/' :: bareEntry s := by
  obtain ⟨n, hn⟩ := exists_eq_bareEntry_append s
  by_cases hbare : bareEntry s = []
  · left
    have hslashes : '/' :: s = [] ++ List.replicate (n + 1) '/' := by
      rw [hn, hbare, List.nil_append, List.nil_append, List.replicate_succ]
    rw [hslashes, bareEntry_append_slashes, hbare]
    rfl
  · right
    have hlast : bareEntry ('/' :: bareEntry s) = '/' :: bareEntry s := by
      refine List.rdropWhile_eq_self_iff.mpr fun _ => ?_
      rw [List.getLast_cons hbare]
      exact List.rdropWhile_last_not _ _ hbare
    conv_lhs => rw [hn, ← List.cons_append, bareEntry_append_slashes, hlast]

/-- The comparison without slashes at the end. -/
theorem names_iff : Names line target ↔
    bareEntry line = bareEntry target ∨ bareEntry line = '/' :: bareEntry target := by
  obtain ⟨m, hm⟩ := exists_eq_bareEntry_append line
  obtain ⟨n, hn⟩ := exists_eq_bareEntry_append target
  constructor
  · rintro ⟨a, b, h | h⟩
    · have hbare := congrArg bareEntry h
      rw [bareEntry_append_slashes, bareEntry_append_slashes] at hbare
      exact Or.inl hbare
    · have hbare := congrArg bareEntry h
      rw [bareEntry_append_slashes, bareEntry_append_slashes] at hbare
      rw [hbare]
      exact bareEntry_cons_slash target
  · -- each of the two gets the slashes that the other one has
    have hswap : List.replicate m '/' ++ List.replicate n '/' =
        List.replicate n '/' ++ List.replicate m '/' := by
      rw [List.replicate_append_replicate, List.replicate_append_replicate, Nat.add_comm]
    rintro (h | h)
    · refine ⟨n, m, Or.inl ?_⟩
      conv_lhs => rw [hm, h, List.append_assoc, hswap, ← List.append_assoc, ← hn]
    · refine ⟨n, m, Or.inr ?_⟩
      conv_lhs => rw [hm, h, List.append_assoc, hswap, ← List.append_assoc, List.cons_append, ← hn]

/-- An entry is found exactly if one of the lines, without blanks at its ends, says it. -/
theorem isIgnored_iff :
    isIgnored text target = true ↔
      ∃ line ∈ Text.paragraphs text, Names (Text.trim line) target := by
  simp only [isIgnored, ignoreEntries, Bool.or_eq_true, List.contains_iff_mem, List.mem_map,
    names_iff, and_or_left, exists_or]

/-! ### What is added -/

theorem ignoreAddition_ne_nil (text target : List Char) : ignoreAddition text target ≠ [] :=
  List.append_ne_nil_of_right_ne_nil _ (List.cons_ne_nil _ _)

/-- What is added begins a new line and never with a second half of a line end. -/
theorem head?_ignoreAddition (hne : target ≠ []) (hline : Text.IsLine target)
    (hlast : text.getLast? = some '\n') :
    (ignoreAddition text target).head? ≠ some '\n' := by
  obtain ⟨c, rest, rfl⟩ := List.exists_cons_of_ne_nil hne
  rw [ignoreAddition, if_pos (Or.inr hlast)]
  intro hhead
  obtain rfl : c = '\n' := Option.some.inj hhead
  exact absurd (hline '\n' List.mem_cons_self) (by decide)

theorem return_notMem_ignoreAddition (hline : Text.IsLine target) :
    '\r' ∉ ignoreAddition text target := by
  rw [ignoreAddition]
  split <;> simp [hline.return_notMem]

/-- The entry is the last line of the new text, and the lines of the old text are lines before
it. -/
theorem paragraphs_ignoreAddition (htext : '\r' ∉ text) (hline : Text.IsLine target) :
    ∃ before, Text.paragraphs (text ++ ignoreAddition text target) = before ++ [target] ∧
      Text.paragraphs text <+: before := by
  rw [ignoreAddition]
  split
  · rename_i hfresh
    rcases hfresh with rfl | hlast
    · refine ⟨[], ?_, List.prefix_refl _⟩
      rw [List.nil_append, List.nil_append, Text.paragraphs_concat_newline hline.return_notMem,
        hline.boundaryPieces_eq]
      rfl
    · -- the line feed at the end of the text stands in front of the entry
      obtain ⟨start, rfl⟩ := List.getLast?_eq_some_iff.mp hlast
      have hstart : '\r' ∉ start := fun h => htext (List.mem_append_left _ h)
      refine ⟨Text.boundaryPieces start, ?_, ?_⟩
      · rw [List.nil_append, ← List.append_assoc, List.append_assoc start, List.singleton_append]
        exact Text.paragraphs_append_line hstart hline
      · exact ⟨[], by rw [List.append_nil, Text.paragraphs_concat_newline hstart]⟩
  · refine ⟨Text.boundaryPieces text, ?_, Text.paragraphs_isPrefix htext⟩
    rw [List.singleton_append, ← List.append_assoc]
    exact Text.paragraphs_append_line htext hline

/-! ### The file -/

theorem return_notMem_strictText? {bytes : List UInt8} (h : strictText? bytes = some text) :
    '\r' ∉ text := by
  obtain ⟨s, -, rfl⟩ := Option.map_eq_some_iff.mp h
  exact Text.return_notMem_unifyBreaks s

/-- What is written behind the bytes of a text is read behind the text. -/
theorem strictText?_append {addition : List Char}
    (htext : strictText? content.data.toList = some text) (hreturn : '\r' ∉ addition)
    (hmeet : text.getLast? = some '\n' → addition.head? ≠ some '\n') :
    strictText? (content ++ (String.ofList addition).toUTF8).data.toList =
      some (text ++ addition) := by
  obtain ⟨s, hs, rfl⟩ := Option.map_eq_some_iff.mp htext
  rw [strictText?, ByteArray.data_append, Array.toList_append, Utf8.decode?_append_toUTF8 hs,
    String.toList_ofList, Option.map_some,
    Text.unifyBreaks_append fun hlast => hmeet (Text.getLast?_unifyBreaks hlast),
    Text.unifyBreaks_of_notMem hreturn]

theorem ensureIgnored_of_isIgnored
    (hfile : w.look (under root ignoreFileName) = .ok (some (.file content)))
    (htext : strictText? content.data.toList = some text)
    (hignored : isIgnored text entry.toList = true) :
    ensureIgnored w root entry = .ok (false, w) := by
  simp only [ensureIgnored, hfile, Outcome.ok_bind, htext, hignored, if_true]
  rfl

theorem ensureIgnored_of_write
    (hfile : w.look (under root ignoreFileName) = .ok (some (.file content)))
    (htext : strictText? content.data.toList = some text)
    (hignored : isIgnored text entry.toList = false)
    (hwrite : w.write (under root ignoreFileName)
      (content ++ (String.ofList (ignoreAddition text entry.toList)).toUTF8) = .ok after) :
    ensureIgnored w root entry = .ok (true, after) := by
  simp only [ensureIgnored, hfile, Outcome.ok_bind, htext, hignored, hwrite]
  rfl

/-- **An entry is added at most once.** After an entry was to be added to a list of ignored files,
a line of the list says it and the lines that were there are the first ones of the list. To add it
again changes nothing. Whether the list was changed is what is answered. -/
theorem ensureIgnored_adds_once (w : Workspace) (root entry : String) {content : ByteArray}
    {text : List Char}
    (hfile : w.look (under root ignoreFileName) = .ok (some (.file content)))
    (htext : strictText? content.data.toList = some text) (hne : entry ≠ "")
    (hline : Text.IsLine entry.toList) (htrim : Text.trim entry.toList = entry.toList) :
    ∃ changed after content' text', ensureIgnored w root entry = .ok (changed, after) ∧
      after.look (under root ignoreFileName) = .ok (some (.file content')) ∧
      strictText? content'.data.toList = some text' ∧
      (∃ line ∈ Text.paragraphs text', Names (Text.trim line) entry.toList) ∧
      Text.paragraphs text <+: Text.paragraphs text' ∧
      ensureIgnored after root entry = .ok (false, after) ∧
      (changed = false ↔ content' = content) := by
  cases hignored : isIgnored text entry.toList with
  | true =>
    have hsame := ensureIgnored_of_isIgnored hfile htext hignored
    exact ⟨false, w, content, text, hsame, hfile, htext, isIgnored_iff.mp hignored,
      List.prefix_refl _, hsame, fun _ => rfl, fun _ => rfl⟩
  | false =>
    have hreturn := return_notMem_strictText? htext
    have hchars : entry.toList ≠ [] := fun h => hne (String.toList_eq_nil_iff.mp h)
    obtain ⟨after, hwrite, hfile'⟩ := exists_write_of_look hfile
      (content ++ (String.ofList (ignoreAddition text entry.toList)).toUTF8)
    have htext' := strictText?_append htext (return_notMem_ignoreAddition hline)
      (head?_ignoreAddition hchars hline)
    obtain ⟨before, hparagraphs, hbefore⟩ := paragraphs_ignoreAddition hreturn hline
    have hsaid : ∃ line ∈ Text.paragraphs (text ++ ignoreAddition text entry.toList),
        Names (Text.trim line) entry.toList := by
      refine ⟨entry.toList, ?_, ?_⟩
      · rw [hparagraphs]
        exact List.mem_concat_self
      · rw [htrim]
        exact Names.refl _
    refine ⟨true, after, _, _, ensureIgnored_of_write hfile htext hignored hwrite, hfile', htext',
      hsaid, ?_, ensureIgnored_of_isIgnored hfile' htext' (isIgnored_iff.mpr hsaid), nofun, ?_⟩
    · rw [hparagraphs]
      exact hbefore.trans (List.prefix_append _ _)
    · intro hsame
      rw [hsame, htext] at htext'
      have hnil := List.self_eq_append_right.mp (Option.some.inj htext')
      exact absurd hnil (ignoreAddition_ne_nil text entry.toList)

/-- A project with a list of ignored files whose only line ends with a carriage return. -/
def returnedList : Workspace where
  tree := .folder [(ignoreFileName, .file "node_modules\r".toUTF8)]

theorem look_returnedList : returnedList.look (under "/" ignoreFileName) =
    .ok (some (.file "node_modules\r".toUTF8)) := by
  have husable : returnedList.IsUsable (under "/" ignoreFileName) := by decide +kernel
  have hway : returnedList.way (under "/" ignoreFileName) = [ignoreFileName] := by decide +kernel
  have hfind : returnedList.find true (under "/" ignoreFileName) = .ok [ignoreFileName] :=
    find_of_way_eq husable hway (.stop_of_file (by decide) rfl)
  exact look_eq_some_iff.mpr ⟨_, hfind, rfl⟩

/-- An entry is added behind a carriage return as a line of its own. -/
theorem ensureIgnored_adds_once_returnedList :
    returnedList.look (under "/" ignoreFileName) = .ok (some (.file "node_modules\r".toUTF8)) ∧
      ∃ after, ensureIgnored returnedList "/" "reports/" = .ok (true, after) ∧
        ensureIgnored after "/" "reports/" = .ok (false, after) := by
  have htext : strictText? "node_modules\r".toUTF8.data.toList = some "node_modules\n".toList := by
    decide +kernel
  have hlacking : ¬isIgnored "node_modules\n".toList "reports/".toList = true := by decide +kernel
  obtain ⟨changed, after, content', text', hfirst, -, htext', hsaid, -, hsecond, hchanged⟩ :=
    ensureIgnored_adds_once returnedList "/" "reports/" look_returnedList htext (by decide)
      (by decide +kernel) (by decide +kernel)
  refine ⟨look_returnedList, after, ?_, hsecond⟩
  cases changed with
  | true => exact hfirst
  | false =>
    -- the line that says the entry would be one of the old text
    rw [hchanged.mp rfl, htext] at htext'
    rw [← Option.some.inj htext'] at hsaid
    exact absurd (isIgnored_iff.mpr hsaid) hlacking

end Project

end ScriptHealth
