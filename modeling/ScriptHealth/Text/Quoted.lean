import ScriptHealth.Text.Blank
import ScriptHealth.Text.Printable

/-!
# Quoted text

A text inside a message is shown between apostrophes, or between quotation marks when it holds an
apostrophe and no quotation mark. Backslashes and the delimiter are escaped, and characters that
are not printable are written by their code point with two, four or eight hexadecimal digits.
-/

namespace ScriptHealth.Text

/-- A number in lower-case hexadecimal with at least `width` digits. -/
def hexDigits (width n : Nat) : List Char :=
  let ds := Nat.toDigits 16 n
  List.replicate (width - ds.length) '0' ++ ds

/-- The delimiter of the quoted form. -/
def delimiter (s : List Char) : Char :=
  if s.contains apostrophe && !s.contains quote then quote else apostrophe

/-- The quoted form of one character. -/
def quoteChar (delim c : Char) : List Char :=
  let n := c.toNat
  if c = '\\' ∨ c = delim then ['\\', c]
  else if c = '\t' then ['\\', 't']
  else if c = '\n' then ['\\', 'n']
  else if c = '\r' then ['\\', 'r']
  else if isPrintable c then [c]
  else if n < 0x100 then '\\' :: 'x' :: hexDigits 2 n
  else if n < 0x10000 then '\\' :: 'u' :: hexDigits 4 n
  else '\\' :: 'U' :: hexDigits 8 n

/-- The quoted form of a text. -/
def quoted (s : List Char) : List Char :=
  let d := delimiter s
  d :: (s.flatMap (quoteChar d) ++ [d])

end ScriptHealth.Text
