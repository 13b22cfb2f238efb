import ScriptHealth.Number.Binary64
import ScriptHealth.Text.Blank
import ScriptHealth.Text.Digit

/-!
# Numerals in text

Reading of integers and decimal fractions as they are typed by a user: blanks around the numeral
are dropped, digits of every script count, and a single underscore may stand between two digits.
An integer of more than 4300 digits is refused.
-/

namespace ScriptHealth.Number

open scoped Plain

/-- Why a numeral is refused. -/
inductive NumeralFault where
  | malformed
  | tooManyDigits (count : Nat)
  deriving DecidableEq, Repr

/-- The greatest number of digits of an integer. -/
def digitLimit : Nat := 4300

/-- A blank that may surround a numeral: ASCII white space, or any blank beyond ASCII. -/
def isNumeralBlank (c : Char) : Bool :=
  if c.toNat < 128 then c == ' ' || (9 ≤ c.toNat && c.toNat ≤ 13) else Text.isBlank c

/-- Write a character of a numeral in ASCII. What has no meaning in a numeral becomes a question
mark. -/
def plainChar (c : Char) : Char :=
  if c.toNat < 128 then c
  else if Text.isBlank c then ' '
  else
    match Text.digitValue? c with
    | some d => Char.ofNat (48 + d)
    | none => '?'

/-- The numeral in ASCII without the blanks around it. -/
def bareNumeral (s : List Char) : List Char :=
  let s := (s.map plainChar).dropWhile isNumeralBlank
  (s.reverse.dropWhile isNumeralBlank).reverse

/-- The sign of a numeral and what follows it. -/
def splitSign : List Char → Bool × List Char
  | '-' :: r => (true, r)
  | '+' :: r => (false, r)
  | r => (false, r)

/-- The number that a digit text stands for. -/
def digitsValue (ds : List Char) : Nat := ds.foldl (fun n c => n * 10 + (c.toNat - 48)) 0

/-- Drop the underscores when each one stands between two digits. -/
def dropUnderscores (s : List Char) : Option (List Char) :=
  let rec go (before : Char) : List Char → List Char → Option (List Char)
    | [], acc => if before = '_' then none else some acc.reverse
    | c :: r, acc =>
      if c = '_' then (if before.isDigit then go c r acc else none)
      else if before = '_' ∧ !c.isDigit then none
      else go c r (c :: acc)
  go ' ' s []

/-- The digits and single underscores at the start: the digits, the last character read, and the
rest. -/
def takeDigits (s : List Char) : List Char × Char × List Char :=
  let rec go (before : Char) : List Char → List Char → List Char × Char × List Char
    | [], acc => (acc.reverse, before, [])
    | c :: r, acc =>
      if c = '_' then (if before = '_' then (acc.reverse, before, c :: r) else go c r acc)
      else if c.isDigit then go c r (c :: acc)
      else (acc.reverse, before, c :: r)
  go '_' s []

/-- Read an integer. -/
def readInt (s : List Char) : Except NumeralFault Int :=
  let (negative, body) := splitSign (bareNumeral s)
  let (ds, last, rest) := takeDigits body
  if last = '_' then .error .malformed
  else if digitLimit < ds.length then .error (.tooManyDigits ds.length)
  else if rest ≠ [] then .error .malformed
  else
    let n := (digitsValue ds : Int)
    .ok (if negative then -n else n)

/-- The digits at the start and the rest. -/
def spanDigits (s : List Char) : List Char × List Char := s.span Char.isDigit

/-- The exponent part of a decimal numeral; the whole of it has to be read. -/
def readExponent : List Char → Option Int
  | [] => some 0
  | c :: r =>
    if c = 'e' ∨ c = 'E' then
      let (negative, ds) := splitSign r
      if ds ≠ [] ∧ ds.all Char.isDigit then
        -- an exponent of twenty digits is as good as any longer one
        let kept := ds.dropWhile (· == '0')
        let n : Int := if 20 < kept.length then 10 ^ (20 : Nat) else digitsValue kept
        some (if negative then -n else n)
      else none
    else none

/-- Read digits with an optional fraction and an optional exponent. -/
def readDecimal (negative : Bool) (s : List Char) : Option Binary64 :=
  let (whole, r) := spanDigits s
  let (fraction, r) := match r with
    | '.' :: r => spanDigits r
    | r => ([], r)
  if whole = [] ∧ fraction = [] then none
  else
    (readExponent r).map fun e =>
      Binary64.ofDecimal negative (digitsValue (whole ++ fraction)) (e - fraction.length)

/-- Read a floating-point number; the names of the infinities and of the value that is not a
number are read in any case of letters. -/
def readReal (s : List Char) : Option Binary64 :=
  match dropUnderscores (bareNumeral s) with
  | none => none
  | some s =>
    let (negative, body) := splitSign s
    let word := body.map Char.toLower
    if word = ['i', 'n', 'f'] ∨ word = ['i', 'n', 'f', 'i', 'n', 'i', 't', 'y'] then
      some (.infinite negative)
    else if word = ['n', 'a', 'n'] then some .nan
    else readDecimal negative body

end ScriptHealth.Number
