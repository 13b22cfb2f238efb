import ScriptHealth.Number.Numeral
import ScriptHealth.Value.Basic

/-!
# Reading JSON text

The reader works on the characters that remain. Maps keep the order of their keys; a repeated key
keeps its first place and takes its last value. Integers and fractions are told apart by their
spelling, the names `NaN`, `Infinity` and `-Infinity` are numbers, and an integer of more than
4300 digits is refused with its own fault.

## Main definitions

* `Json.parse` reads a whole text
* `Json.readValue` reads one value and leaves the rest
-/

namespace ScriptHealth.Json

open Number

/-- Why a text is refused. -/
inductive Fault where
  | malformed
  | tooManyDigits (count : Nat)
  deriving DecidableEq, Repr

/-- The blanks between the parts of a JSON text. -/
def isSpace (c : Char) : Bool := c == ' ' || c == '\t' || c == '\n' || c == '\r'

/-- Pass over blanks. -/
def skipSpace (s : List Char) : List Char := s.dropWhile isSpace

/-- The value of a hexadecimal digit. -/
def hexValue? (c : Char) : Option Nat :=
  if c.isDigit then some (c.toNat - 48)
  else if 'a' ≤ c ∧ c ≤ 'f' then some (c.toNat - 87)
  else if 'A' ≤ c ∧ c ≤ 'F' then some (c.toNat - 55)
  else none

/-- Four hexadecimal digits. -/
def hexUnit? : List Char → Option (Nat × List Char)
  | a :: b :: c :: d :: r => do
    let n := ((← hexValue? a) * 16 + (← hexValue? b)) * 256 + (← hexValue? c) * 16 + (← hexValue? d)
    pure (n, r)
  | _ => none

/-- The character of a code point. A half of a surrogate pair that is escaped alone has none: it becomes
the replacement character, so texts that differ in such halves only are read alike, also as keys. -/
def charOf (n : Nat) : Char := if n.isValidChar then Char.ofNat n else Char.ofNat 0xFFFD

/-- The low half of a surrogate pair, escaped. -/
def lowSurrogate? : List Char → Option (Nat × List Char)
  | '\\' :: 'u' :: r =>
    match hexUnit? r with
    | some (n, r) => if 0xDC00 ≤ n ∧ n < 0xE000 then some (n, r) else none
    | none => none
  | _ => none

/-- The character of an escaped unit, joined with the low half that follows a high one. -/
def unicodeEscape? (s : List Char) : Option (Char × List Char) :=
  match hexUnit? s with
  | none => none
  | some (n, r) =>
    if 0xD800 ≤ n ∧ n < 0xDC00 then
      -- a high half alone stands for a character by itself
      match lowSurrogate? r with
      | some (low, r) => some (charOf (0x10000 + (n - 0xD800) * 1024 + (low - 0xDC00)), r)
      | none => some (charOf n, r)
    else some (charOf n, r)

/-- The character of an escape of one letter. -/
def shortEscape? (c : Char) : Option Char :=
  if c = Text.quote ∨ c = '\\' ∨ c = '/' then some c
  else if c = 'b' then some '\x08'
  else if c = 'f' then some '\x0c'
  else if c = 'n' then some '\n'
  else if c = 'r' then some '\r'
  else if c = 't' then some '\t'
  else none

/-- Read an escape after its backslash. -/
def escape? : List Char → Option (Char × List Char)
  | 'u' :: r => unicodeEscape? r
  | c :: r => (shortEscape? c).map (·, r)
  | [] => none

/-- The characters of a string up to its closing quotation mark. -/
def readString : Nat → List Char → List Char → Except Fault (String × List Char)
  | 0, _, _ => .error .malformed
  | _ + 1, [], _ => .error .malformed
  | n + 1, c :: r, acc =>
    if c = Text.quote then .ok (String.ofList acc.reverse, r)
    else if c = '\\' then
      match escape? r with
      | some (d, r) => readString n r (d :: acc)
      | none => .error .malformed
    else if c.toNat < 32 then .error .malformed
    else readString n r (c :: acc)

/-- The fraction of a number: a point and at least one digit. -/
def fraction? : List Char → Option (List Char × List Char)
  | '.' :: r =>
    let (ds, rest) := spanDigits r
    if ds = [] then none else some (ds, rest)
  | _ => none

/-- The exponent of a number. -/
def exponent? : List Char → Option (Int × List Char)
  | c :: r =>
    if c = 'e' ∨ c = 'E' then
      let (negative, r) := splitSign r
      let (ds, rest) := spanDigits r
      if ds = [] then none
      else (readExponent ('e' :: ds)).map fun n => (if negative then -n else n, rest)
    else none
  | [] => none

/-- The digits before the point: a zero alone, or digits that do not start with zero. -/
def whole? (s : List Char) : Option (List Char × List Char) :=
  match s with
  | '0' :: r => some (['0'], r)
  | _ =>
    let (ds, rest) := spanDigits s
    if ds = [] then none else some (ds, rest)

/-- A number without its sign. It is an integer when it has neither fraction nor exponent. -/
def readNumber (negative : Bool) (s : List Char) : Except Fault (Value × List Char) :=
  match whole? s with
  | none => .error .malformed
  | some (ds, r) =>
    let (fraction, r, hasFraction) := match fraction? r with
      | some (fs, r) => (fs, r, true)
      | none => ([], r, false)
    let (e, r, hasExponent) := match exponent? r with
      | some (e, r) => (e, r, true)
      | none => (0, r, false)
    if hasFraction || hasExponent then
      .ok (.real (Binary64.ofDecimal negative (digitsValue (ds ++ fraction)) (e - fraction.length)), r)
    else if digitLimit < ds.length then .error (.tooManyDigits ds.length)
    else
      let n := (digitsValue ds : Int)
      .ok (.int (if negative then -n else n), r)

/-- The names of values. -/
def names : List (List Char × Value) :=
  [("null".toList, .null), ("true".toList, .bool true), ("false".toList, .bool false),
   ("NaN".toList, .real .nan), ("Infinity".toList, .real (.infinite false)),
   ("-Infinity".toList, .real (.infinite true))]

/-- A value that is given by its name. -/
def readName? (s : List Char) : Option (Value × List Char) :=
  (names.find? fun p => p.1.isPrefixOf s).map fun p => (p.2, s.drop p.1.length)

/-- A value that is neither a string, a list nor a map. -/
def readAtom (s : List Char) : Except Fault (Value × List Char) :=
  match readName? s with
  | some found => .ok found
  | none =>
    match s with
    | '-' :: r => readNumber true r
    | s => readNumber false s

mutual

/-- Read one value; blanks before it have been passed over. -/
def readValue : Nat → List Char → Except Fault (Value × List Char)
  | 0, _ => .error .malformed
  | n + 1, s =>
    match s with
    | '[' :: r =>
      match skipSpace r with
      | ']' :: r => .ok (.list [], r)
      | r => readItems n r []
    | '\x7b' :: r =>
      match skipSpace r with
      | '\x7d' :: r => .ok (.map [], r)
      | r => readEntries n r []
    | '\x22' :: r =>
      match readString (r.length + 1) r [] with
      | .ok (text, r) => .ok (.str text, r)
      | .error e => .error e
    | s => readAtom s

/-- Read the items of a list, at least one, up to the closing bracket. -/
def readItems : Nat → List Char → List Value → Except Fault (Value × List Char)
  | 0, _, _ => .error .malformed
  | n + 1, s, acc =>
    match readValue n s with
    | .error e => .error e
    | .ok (v, r) =>
      match skipSpace r with
      | ']' :: r => .ok (.list (v :: acc).reverse, r)
      | ',' :: r => readItems n (skipSpace r) (v :: acc)
      | _ => .error .malformed

/-- Read the entries of a map, at least one, up to the closing brace. -/
def readEntries : Nat → List Char → List (String × Value) → Except Fault (Value × List Char)
  | 0, _, _ => .error .malformed
  | n + 1, s, acc =>
    match s with
    | '\x22' :: r =>
      match readString (r.length + 1) r [] with
      | .error e => .error e
      | .ok (key, r) =>
        match skipSpace r with
        | ':' :: r =>
          match readValue n (skipSpace r) with
          | .error e => .error e
          | .ok (v, r) =>
            match skipSpace r with
            | '\x7d' :: r => .ok (.map (OrderedMap.ofPairs ((key, v) :: acc).reverse), r)
            | ',' :: r => readEntries n (skipSpace r) ((key, v) :: acc)
            | _ => .error .malformed
        | _ => .error .malformed
    | _ => .error .malformed

end

/-- Read a whole text that holds one value, however deep lists and maps are nested in it. -/
def parse (s : List Char) : Except Fault Value :=
  let s := skipSpace s
  match readValue (s.length + 1) s with
  | .error e => .error e
  | .ok (v, r) => if skipSpace r = [] then .ok v else .error .malformed

end ScriptHealth.Json
