import ScriptHealth.Text.Blank
import Mathlib.Data.List.Infix
import Mathlib.Data.List.TakeWhile

/-!
# What trimming keeps

Trimming takes blanks from the two ends of a text. A part of the text that holds no blank is never
torn apart by it: it stands in the trimmed text exactly if it stands in the text, and at the start
of the one if it stands at the start of the other.

## Main results

* `Text.infix_trim_iff` — the parts without blanks
* `Text.prefix_trim` — a beginning without blanks
-/

namespace ScriptHealth.Text

/-- A text without blanks. -/
def IsSolid (s : List Char) : Prop := ∀ c ∈ s, isBlank c = false

-- only the characters of the text are tried, not all characters there are
instance (s : List Char) : Decidable (IsSolid s) :=
  List.decidableBAll (fun c => isBlank c = false) s

theorem IsSolid.reverse {s : List Char} (h : IsSolid s) : IsSolid s.reverse :=
  fun c hc => h c (List.mem_reverse.mp hc)

/-- A part without blanks begins behind the blanks at the start. -/
theorem infix_trimStart_iff {part : List Char} (hpart : IsSolid part) (s : List Char) :
    part <:+: trimStart s ↔ part <:+: s := by
  induction s with
  | nil => exact Iff.rfl
  | cons c s ih =>
    by_cases hc : isBlank c = true
    · have hskip : trimStart (c :: s) = trimStart s := List.dropWhile_cons_of_pos hc
      rw [hskip, ih, List.infix_cons_iff]
      refine ⟨Or.inr, ?_⟩
      rintro (hfront | hinfix)
      · -- the part does not begin with this blank, so it is empty
        cases part with
        | nil => exact List.nil_infix
        | cons d part =>
          obtain ⟨rfl, -⟩ := List.cons_prefix_cons.mp hfront
          rw [hpart d List.mem_cons_self] at hc
          cases hc
      · exact hinfix
    · have hkeep : trimStart (c :: s) = c :: s := List.dropWhile_cons_of_neg hc
      rw [hkeep]

/-- It ends in front of the blanks at the end. -/
theorem infix_trimEnd_iff {part : List Char} (hpart : IsSolid part) (s : List Char) :
    part <:+: trimEnd s ↔ part <:+: s := by
  have hmirror := infix_trimStart_iff hpart.reverse s.reverse
  rw [List.reverse_infix] at hmirror
  rw [← hmirror, ← List.reverse_infix, trimEnd, List.reverse_reverse]
  rfl

/-- Trimming a text keeps its parts without blanks and adds none. -/
theorem infix_trim_iff {part : List Char} (hpart : IsSolid part) (s : List Char) :
    part <:+: trim s ↔ part <:+: s := by
  rw [trim, infix_trimEnd_iff hpart, infix_trimStart_iff hpart]

/-- An end without blanks is not reached by the blanks at the start. -/
theorem suffix_trimStart {tail : List Char} (htail : IsSolid tail) (s : List Char) :
    tail <:+ trimStart (s ++ tail) := by
  induction s with
  | nil =>
    cases tail with
    | nil => exact List.nil_suffix
    | cons c tail =>
      have hc : ¬isBlank c = true := by simp [htail c List.mem_cons_self]
      rw [List.nil_append, trimStart, List.dropWhile_cons_of_neg hc]
  | cons c s ih =>
    by_cases hc : isBlank c = true
    · rw [List.cons_append, trimStart, List.dropWhile_cons_of_pos hc]
      exact ih
    · rw [trimStart, List.cons_append, List.dropWhile_cons_of_neg hc]
      exact List.suffix_append (c :: s) tail

/-- A text keeps a beginning without blanks when it is trimmed. -/
theorem prefix_trim {start : List Char} (hstart : IsSolid start) (s : List Char) :
    start <+: trim (start ++ s) := by
  cases start with
  | nil => exact List.nil_prefix
  | cons c start =>
    have hc : ¬isBlank c = true := by simp [hstart c List.mem_cons_self]
    have hkeep : trimStart (c :: start ++ s) = c :: start ++ s := List.dropWhile_cons_of_neg hc
    have hend := suffix_trimStart hstart.reverse s.reverse
    rw [← List.reverse_append, ← List.reverse_prefix, List.reverse_reverse] at hend
    rw [trim, hkeep]
    exact hend

end ScriptHealth.Text
