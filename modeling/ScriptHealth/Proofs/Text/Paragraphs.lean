import ScriptHealth.Text.Lines

/-!
# Lines behind a text

Two ways to end a line meet here. A file that is opened as text has line feeds only, since every
carriage return has become one; the lines of the text are then cut at all line boundaries there are.
A line that is written behind a text is a line of its own if a line feed stands in front of it, and
no line of the text is changed by it, whatever the text ends with.

## Main definitions

* `Text.IsLine` — a text without line boundaries
* `Text.boundaryPieces` — the pieces between line boundaries

## Main results

* `Text.unifyBreaks_append` — a text behind a text, where no line end is torn apart
* `Text.paragraphs_append_line` — a line behind a text
-/

namespace ScriptHealth.Text

variable {a b s line : List Char} {c : Char}

/-! ### Carriage returns -/

/-- A step from the right knows whether a line feed stands first. -/
theorem foldr_unifyStep (s : List Char) :
    s.foldr unifyStep ([], false) = (unifyBreaks s, s.head? == some '\n') := by
  refine Prod.ext rfl ?_
  cases s with
  | nil => rfl
  | cons c s =>
    rw [List.foldr_cons, unifyStep, List.head?_cons]
    split
    · rename_i hc
      simp [hc]
    · rename_i hc
      split <;> simp [hc]

theorem unifyBreaks_cons (c : Char) (s : List Char) :
    unifyBreaks (c :: s) =
      if c = '\r' then (if s.head? = some '\n' then unifyBreaks s else '\n' :: unifyBreaks s)
      else c :: unifyBreaks s := by
  rw [unifyBreaks, List.foldr_cons, foldr_unifyStep, unifyStep]
  by_cases hc : c = '\n'
  · simp [hc]
  · by_cases hr : c = '\r'
    · simp [hr]
    · simp [hc, hr]

/-- Two texts are read one behind the other, unless a line end of two characters is made where they
meet. -/
theorem unifyBreaks_append (h : a.getLast? = some '\r' → b.head? ≠ some '\n') :
    unifyBreaks (a ++ b) = unifyBreaks a ++ unifyBreaks b := by
  induction a with
  | nil => rfl
  | cons c a ih =>
    rw [List.cons_append, unifyBreaks_cons, unifyBreaks_cons]
    cases a with
    | nil =>
      -- only here the character in front of the second text is seen
      by_cases hc : c = '\r'
      · rw [if_pos hc, if_pos hc, List.nil_append, if_neg (h (congrArg some hc))]
        rfl
      · rw [if_neg hc, if_neg hc]
        rfl
    | cons d a =>
      rw [ih (by rwa [List.getLast?_cons_cons] at h), List.cons_append, List.head?_cons,
        List.head?_cons]
      split
      · split <;> rfl
      · rfl

theorem return_notMem_unifyBreaks (s : List Char) : '\r' ∉ unifyBreaks s := by
  induction s with
  | nil => exact List.not_mem_nil
  | cons c s ih =>
    rw [unifyBreaks_cons]
    split
    · split
      · exact ih
      · simpa using ih
    · rename_i hc
      rw [List.mem_cons, not_or]
      exact ⟨Ne.symm hc, ih⟩

/-- A text without carriage returns is left as it is. -/
theorem unifyBreaks_of_notMem (h : '\r' ∉ s) : unifyBreaks s = s := by
  induction s with
  | nil => rfl
  | cons c s ih =>
    rw [List.mem_cons, not_or] at h
    rw [unifyBreaks_cons, if_neg (Ne.symm h.1), ih h.2]

/-- A carriage return at the end is read as a line feed at the end. -/
theorem getLast?_unifyBreaks (h : s.getLast? = some '\r') :
    (unifyBreaks s).getLast? = some '\n' := by
  obtain ⟨a, rfl⟩ := List.getLast?_eq_some_iff.mp h
  have hfeed : unifyBreaks ['\r'] = ['\n'] := by decide
  rw [unifyBreaks_append (fun _ => by decide), hfeed, List.getLast?_concat]

/-! ### Line boundaries -/

/-- A text without line boundaries. -/
def IsLine (s : List Char) : Prop := ∀ c ∈ s, isLineBreak c = false

-- only the characters of the text are tried, not all characters there are
instance (s : List Char) : Decidable (IsLine s) :=
  List.decidableBAll (fun c => isLineBreak c = false) s

theorem IsLine.return_notMem (h : IsLine line) : '\r' ∉ line := fun hreturn =>
  absurd (h '\r' hreturn) (by decide)

/-- The pieces between line boundaries; behind a boundary at the end there is an empty piece. -/
def boundaryPieces (s : List Char) : List (List Char) :=
  s.foldr (fun c acc => if isLineBreak c then [] :: acc else consFirst c acc) [[]]

theorem boundaryPieces_cons (c : Char) (s : List Char) :
    boundaryPieces (c :: s) =
      if isLineBreak c then [] :: boundaryPieces s else consFirst c (boundaryPieces s) :=
  rfl

theorem boundaryPieces_ne_nil (s : List Char) : boundaryPieces s ≠ [] := by
  cases s with
  | nil => exact List.cons_ne_nil _ _
  | cons c s =>
    rw [boundaryPieces_cons]
    split
    · exact List.cons_ne_nil _ _
    · cases boundaryPieces s <;> exact List.cons_ne_nil _ _

/-- At a boundary the pieces fall apart into those before and those behind it. -/
theorem boundaryPieces_append_cons (hc : isLineBreak c = true) (a b : List Char) :
    boundaryPieces (a ++ c :: b) = boundaryPieces a ++ boundaryPieces b := by
  induction a with
  | nil =>
    rw [List.nil_append, boundaryPieces_cons, if_pos hc]
    rfl
  | cons d a ih =>
    rw [List.cons_append, boundaryPieces_cons, boundaryPieces_cons, ih]
    split
    · rfl
    · exact consFirst_append (boundaryPieces_ne_nil a) d (boundaryPieces b)

theorem IsLine.boundaryPieces_eq (h : IsLine line) : boundaryPieces line = [line] := by
  induction line with
  | nil => rfl
  | cons c line ih =>
    obtain ⟨hc, hline⟩ := List.forall_mem_cons.mp h
    rw [boundaryPieces_cons, hc, ih hline]
    rfl

theorem paragraphs_eq (h : '\r' ∉ s) :
    paragraphs s = if (boundaryPieces s).getLast? = some [] then (boundaryPieces s).dropLast
      else boundaryPieces s := by
  rw [paragraphs, unifyBreaks_of_notMem h]
  rfl

/-- The lines of a text are its pieces, up to the piece behind the last boundary. -/
theorem paragraphs_isPrefix (h : '\r' ∉ s) : paragraphs s <+: boundaryPieces s := by
  rw [paragraphs_eq h]
  split
  · exact List.dropLast_prefix _
  · exact List.prefix_refl _

/-- A line feed at the end ends the last line and begins none. -/
theorem paragraphs_concat_newline (h : '\r' ∉ s) : paragraphs (s ++ ['\n']) = boundaryPieces s := by
  have hpieces : boundaryPieces (s ++ ['\n']) = boundaryPieces s ++ [[]] :=
    boundaryPieces_append_cons (by decide) s []
  rw [paragraphs_eq (by simp [h]), hpieces, if_pos List.getLast?_concat, List.dropLast_concat]

/-- A line that is written behind a text. -/
theorem paragraphs_append_line (hs : '\r' ∉ s) (hline : IsLine line) :
    paragraphs (s ++ '\n' :: line ++ ['\n']) = boundaryPieces s ++ [line] := by
  rw [paragraphs_concat_newline (by simp [hs, hline.return_notMem]),
    boundaryPieces_append_cons (by decide), hline.boundaryPieces_eq]

end ScriptHealth.Text
