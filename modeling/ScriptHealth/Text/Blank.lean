/-!
# Blank characters

Lines of source text, manifest fields and log lines are compared after the blanks at their two
ends are removed. A blank is a white-space character of the Unicode standard or one of the four
ASCII separators 28 to 31.

## Main definitions

* `Text.isBlank` decides whether a character is blank
* `Text.trim`, `Text.trimStart`, `Text.trimEnd` remove blanks at the ends of a text
-/

namespace ScriptHealth.Text

/-- The quotation mark. -/
def quote : Char := '\x22'

/-- The apostrophe. -/
def apostrophe : Char := '\x27'

/-- A blank: Unicode white space, or one of the ASCII separators 28 to 31. -/
def isBlank (c : Char) : Bool :=
  let n := c.toNat
  (9 ≤ n && n ≤ 13) || (28 ≤ n && n ≤ 32) || n == 0x85 || n == 0xA0 || n == 0x1680 ||
    (0x2000 ≤ n && n ≤ 0x200A) || n == 0x2028 || n == 0x2029 || n == 0x202F || n == 0x205F ||
    n == 0x3000

/-- Remove the blanks at the start. -/
def trimStart (s : List Char) : List Char := s.dropWhile isBlank

/-- Remove the blanks at the end. -/
def trimEnd (s : List Char) : List Char := (s.reverse.dropWhile isBlank).reverse

/-- Remove the blanks at both ends. -/
def trim (s : List Char) : List Char := trimEnd (trimStart s)

/-- Remove the occurrences of `c` at the end. -/
def dropTrailing (c : Char) (s : List Char) : List Char := (s.reverse.dropWhile (· == c)).reverse

/-- After `trimStart` no blank stands at the start. -/
theorem head_trimStart (s : List Char) (c : Char) (r : List Char) (h : trimStart s = c :: r) :
    isBlank c = false := by
  induction s with
  | nil => simp [trimStart] at h
  | cons a s ih =>
    cases ha : isBlank a with
    | true => exact ih (by simpa [trimStart, List.dropWhile, ha] using h)
    | false =>
      simp only [trimStart, List.dropWhile, ha, List.cons.injEq] at h
      exact h.1 ▸ ha

end ScriptHealth.Text
