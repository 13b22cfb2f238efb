import ScriptHealth.Text.Lines

/-!
# Cutting and joining texts

Cutting a text at a separator and joining pieces by it undo each other, as long as no piece holds
the separator. The first pieces of a text, joined again, end either with the text or in front of a
separator.

## Main results

* `Text.length_splitAt` — there is one piece more than there are separators
* `Text.lines_joined` — the lines of two texts, one below the other
* `Text.sep_notMem_of_mem_splitAt` — no piece holds the separator
* `Text.splitAt_joinWith` — pieces without the separator are read back from their joined text
* `Text.eq_or_prefix_joinWith_take` — where the first pieces of a text end
-/

namespace ScriptHealth.Text

/-- A text without the separator is one piece. -/
theorem splitAt_of_notMem {sep : Char} {s : List Char} (h : sep ∉ s) : splitAt sep s = [s] := by
  induction s with
  | nil => rfl
  | cons c s ih =>
    rw [List.mem_cons, not_or] at h
    have hne : c ≠ sep := fun hc => h.1 hc.symm
    rw [splitAt_cons, if_neg hne, ih h.2, consFirst]

theorem length_consFirst (c : Char) {ps : List (List Char)} (h : ps ≠ []) :
    (consFirst c ps).length = ps.length := by
  cases ps with
  | nil => exact absurd rfl h
  | cons p ps => rfl

/-- There is one piece more than there are separators. -/
theorem length_splitAt (sep : Char) (s : List Char) :
    (splitAt sep s).length = s.count sep + 1 := by
  induction s with
  | nil => rfl
  | cons c s ih =>
    rw [splitAt_cons]
    split
    · rename_i hc
      rw [List.length_cons, ih, hc, List.count_cons_self]
    · rename_i hc
      rw [length_consFirst c (splitAt_ne_nil sep s), ih, List.count_cons_of_ne hc]

/-- The lines of two texts, one below the other. -/
theorem lines_joined (a b : String) :
    lines (a ++ "\n" ++ b).toList = lines a.toList ++ lines b.toList := by
  have hjoined : (a ++ "\n" ++ b).toList = a.toList ++ '\n' :: b.toList := by simp
  rw [hjoined]
  exact splitAt_append_cons '\n' a.toList b.toList

/-- No piece holds the separator. -/
theorem sep_notMem_of_mem_splitAt {sep : Char} {s piece : List Char}
    (h : piece ∈ splitAt sep s) : sep ∉ piece := by
  induction s generalizing piece with
  | nil =>
    obtain rfl := List.mem_singleton.mp h
    exact List.not_mem_nil
  | cons c s ih =>
    rw [splitAt_cons] at h
    split at h
    · rcases List.mem_cons.mp h with rfl | h
      · exact List.not_mem_nil
      · exact ih h
    · -- the character goes to the first piece of what follows, and it is not the separator
      rename_i hc
      obtain ⟨first, rest, hpieces⟩ := List.exists_cons_of_ne_nil (splitAt_ne_nil sep s)
      rw [hpieces] at h ih
      rcases List.mem_cons.mp h with rfl | h
      · rw [List.mem_cons, not_or]
        exact ⟨Ne.symm hc, ih List.mem_cons_self⟩
      · exact ih (List.mem_cons_of_mem first h)

theorem joinWith_cons_of_ne_nil {sep : List Char} {ps : List (List Char)} (h : ps ≠ [])
    (p : List Char) : joinWith sep (p :: ps) = p ++ sep ++ joinWith sep ps := by
  rw [joinWith]
  exact h

theorem joinWith_eq_intercalate (sep : List Char) (ps : List (List Char)) :
    joinWith sep ps = sep.intercalate ps := by
  induction ps with
  | nil => rfl
  | cons p ps ih =>
    cases ps with
    | nil => exact List.intercalate_singleton.symm
    | cons q ps =>
      rw [joinWith_cons_of_ne_nil (List.cons_ne_nil q ps), ih, List.intercalate_cons_cons]

/-- Two groups of pieces are joined by one more separator. -/
theorem joinWith_append {sep : List Char} {ps qs : List (List Char)} (hps : ps ≠ [])
    (hqs : qs ≠ []) : joinWith sep (ps ++ qs) = joinWith sep ps ++ sep ++ joinWith sep qs := by
  induction ps with
  | nil => exact absurd rfl hps
  | cons p ps ih =>
    cases ps with
    | nil => exact joinWith_cons_of_ne_nil hqs p
    | cons q ps =>
      rw [List.cons_append, joinWith_cons_of_ne_nil (by simp), ih (by simp),
        joinWith_cons_of_ne_nil (List.cons_ne_nil q ps)]
      simp only [List.append_assoc]

/-- Pieces without the separator are read back from their joined text. -/
theorem splitAt_joinWith {sep : Char} {ps : List (List Char)} (hps : ps ≠ [])
    (h : ∀ p ∈ ps, sep ∉ p) : splitAt sep (joinWith [sep] ps) = ps := by
  induction ps with
  | nil => exact absurd rfl hps
  | cons p ps ih =>
    have hp : splitAt sep p = [p] := splitAt_of_notMem (h p List.mem_cons_self)
    cases ps with
    | nil => exact hp
    | cons q ps =>
      have hrest := ih (List.cons_ne_nil q ps) fun r hr => h r (List.mem_cons_of_mem p hr)
      rw [joinWith_cons_of_ne_nil (List.cons_ne_nil q ps), List.append_assoc,
        List.singleton_append, splitAt_append_cons, hp, hrest, List.singleton_append]

/-- The first pieces of a text, joined again, are the text or end in front of a separator. -/
theorem eq_or_prefix_joinWith_take (sep : Char) (s : List Char) {k : Nat} (hk : k ≠ 0) :
    s = joinWith [sep] ((splitAt sep s).take k) ∨
      joinWith [sep] ((splitAt sep s).take k) ++ [sep] <+: s := by
  have hjoin : joinWith [sep] ((splitAt sep s).take k ++ (splitAt sep s).drop k) = s := by
    rw [List.take_append_drop, joinWith_splitAt]
  by_cases hdrop : (splitAt sep s).drop k = []
  · rw [hdrop, List.append_nil] at hjoin
    exact Or.inl hjoin.symm
  · have htake : (splitAt sep s).take k ≠ [] := by
      rw [Ne, List.take_eq_nil_iff, not_or]
      exact ⟨hk, splitAt_ne_nil sep s⟩
    rw [joinWith_append htake hdrop] at hjoin
    exact Or.inr ⟨_, hjoin⟩

end ScriptHealth.Text
