/-!
# Lines of a text

Three ways in which a text falls into lines. `lines` cuts at line feeds only and always yields at
least one line. `unifyBreaks` turns every carriage return, alone or before a line feed, into one
line feed, as happens when a file is opened as text. `paragraphs` cuts at every Unicode line
boundary and yields no line after a final boundary.

## Main results

* `Text.splitAt_append_cons` says that a text falls apart at a separator
* `Text.joinWith_splitAt` says that joining undoes splitting
-/

namespace ScriptHealth.Text

/-- Put a character in front of the first line. -/
def consFirst (c : Char) : List (List Char) → List (List Char)
  | [] => [[c]]
  | l :: ls => (c :: l) :: ls

/-- The pieces between separators; a text without a separator is one piece. -/
def splitAt (sep : Char) (s : List Char) : List (List Char) :=
  s.foldr (fun c acc => if c = sep then [] :: acc else consFirst c acc) [[]]

/-- The lines of a text, cut at line feeds. -/
def lines (s : List Char) : List (List Char) := splitAt '\n' s

/-- Join pieces by a separator. -/
def joinWith (sep : List Char) : List (List Char) → List Char
  | [] => []
  | [p] => p
  | p :: ps => p ++ sep ++ joinWith sep ps

/-- One step of `unifyBreaks` from the right: the text so far, and whether a line feed of the
given text stands directly before it. -/
def unifyStep (c : Char) (acc : List Char × Bool) : List Char × Bool :=
  if c = '\n' then ('\n' :: acc.1, true)
  else if c = '\r' then (if acc.2 then acc.1 else '\n' :: acc.1, false)
  else (c :: acc.1, false)

/-- Write every line end as one line feed: a carriage return counts as a line end, together with
a line feed that follows it. -/
def unifyBreaks (s : List Char) : List Char := (s.foldr unifyStep ([], false)).1

/-- Characters that end a line by the Unicode standard, together with the ASCII separators 28
to 30. -/
def isLineBreak (c : Char) : Bool :=
  let n := c.toNat
  (10 ≤ n && n ≤ 13) || (28 ≤ n && n ≤ 30) || n == 0x85 || n == 0x2028 || n == 0x2029

/-- The lines between Unicode line boundaries, without an empty line after the last boundary. -/
def paragraphs (s : List Char) : List (List Char) :=
  let unified := unifyBreaks s
  let pieces := unified.foldr (fun c acc => if isLineBreak c then [] :: acc else consFirst c acc) [[]]
  if pieces.getLast? = some [] then pieces.dropLast else pieces

theorem splitAt_nil (sep : Char) : splitAt sep [] = [[]] := rfl

theorem splitAt_cons (sep c : Char) (s : List Char) :
    splitAt sep (c :: s) = if c = sep then [] :: splitAt sep s else consFirst c (splitAt sep s) :=
  rfl

/-- A text has at least one piece. -/
theorem splitAt_ne_nil (sep : Char) (s : List Char) : splitAt sep s ≠ [] := by
  cases s with
  | nil => simp [splitAt_nil]
  | cons c s =>
    rw [splitAt_cons]
    split
    · simp
    · cases splitAt sep s <;> simp [consFirst]

/-- Putting a character in front does not touch later pieces. -/
theorem consFirst_append {ps : List (List Char)} (h : ps ≠ []) (c : Char) (qs : List (List Char)) :
    consFirst c (ps ++ qs) = consFirst c ps ++ qs := by
  cases ps with
  | nil => exact absurd rfl h
  | cons p ps => rfl

/-- At a separator the pieces of a text fall apart into those before and those behind it. -/
theorem splitAt_append_cons (sep : Char) (a b : List Char) :
    splitAt sep (a ++ sep :: b) = splitAt sep a ++ splitAt sep b := by
  induction a with
  | nil => simp [splitAt_nil, splitAt_cons]
  | cons c a ih =>
    rw [List.cons_append, splitAt_cons, splitAt_cons, ih]
    split
    · rfl
    · exact consFirst_append (splitAt_ne_nil sep a) c (splitAt sep b)

/-- Joining the pieces by the separator gives the text back. -/
theorem joinWith_splitAt (sep : Char) (s : List Char) : joinWith [sep] (splitAt sep s) = s := by
  induction s with
  | nil => rfl
  | cons c s ih =>
    obtain ⟨p, ps, hps⟩ := List.exists_cons_of_ne_nil (splitAt_ne_nil sep s)
    rw [hps] at ih
    rw [splitAt_cons, hps]
    split
    · rename_i hc
      rw [joinWith, ih, hc]
      · rfl
      · simp
    · rw [consFirst]
      cases ps with
      | nil => exact congrArg (c :: ·) ih
      | cons q qs => exact congrArg (c :: ·) ih

end ScriptHealth.Text
