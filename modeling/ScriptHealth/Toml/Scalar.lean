import ScriptHealth.Json.Reader
import ScriptHealth.Toml.Scan
import ScriptHealth.Value.Basic

/-!
# Numbers, dates and texts of TOML

Integers are decimal, hexadecimal, octal or binary, fractions have a point or an exponent; single
underscores may stand between digits. Dates and times are told from numbers by their form. Texts are
quoted by quotation marks, with escapes, or by apostrophes, as they are; three marks enclose a text
of several lines.

## Main definitions

* `Toml.number?`, `Toml.moment?` read a number, a date or a time
* `Toml.readBasic`, `Toml.readLiteral`, `Toml.readBlock` read a quoted text behind its opening mark
-/

namespace ScriptHealth.Toml

open Number

/-! ### Numbers -/

/-- A prefix of an integer that is not decimal: its base and its digits. -/
def baseOf? (c : Char) : Option (Nat × (Char → Bool)) :=
  if c = 'x' then some (16, fun c => (Json.hexValue? c).isSome)
  else if c = 'o' then some (8, fun c => '0' ≤ c && c ≤ '7')
  else if c = 'b' then some (2, fun c => c == '0' || c == '1')
  else none

/-- The value of digits to a base. -/
def valueIn (base : Nat) (ds : List Char) : Nat :=
  ds.foldl (fun n c => n * base + (Json.hexValue? c).getD 0) 0

/-- An integer that names its base. -/
def basedInteger? : List Char → Option (Int × List Char)
  | '0' :: c :: r => do
    let (base, isDigit) ← baseOf? c
    let (ds, rest) ← digitRun? isDigit r
    return ((valueIn base ds : Int), rest)
  | _ => none

/-- The whole part of a decimal: a zero alone, or digits that do not start with zero. -/
def wholePart? : List Char → Option (List Char × List Char)
  | '0' :: r => some (['0'], r)
  | s => digitRun? Char.isDigit s

/-- The fraction of a decimal, if it has one. -/
def fractionPart? : List Char → Option (List Char × List Char)
  | '.' :: r => digitRun? Char.isDigit r
  | _ => none

/-- The exponent of a decimal, if it has one. -/
def exponentPart? : List Char → Option (Int × List Char)
  | c :: r =>
    if c = 'e' ∨ c = 'E' then do
      let (negative, r) := splitSign r
      let (ds, rest) ← digitRun? Char.isDigit r
      let n ← readExponent ('e' :: ds)
      return (if negative then -n else n, rest)
    else none
  | [] => none

/-- A decimal: an integer unless it has a fraction or an exponent. -/
def decimal? (s : List Char) : Option (Except Problem Value × List Char) := do
  let (negative, r) := splitSign s
  let (ds, r) ← wholePart? r
  let fraction := fractionPart? r
  let r := (fraction.map (·.2)).getD r
  let exponent := exponentPart? r
  let r := (exponent.map (·.2)).getD r
  -- the spelling decides the kind of number, also for a fraction that is zero
  if fraction.isSome || exponent.isSome then
    let fs := (fraction.map (·.1)).getD []
    let e := (exponent.map (·.1)).getD 0
    return (.ok (.real (Binary64.ofDecimal negative (digitsValue (ds ++ fs)) (e - fs.length))), r)
  else if digitLimit < ds.length then return (.error (.tooManyDigits ds.length), r)
  else
    let n := (digitsValue ds : Int)
    return (.ok (.int (if negative then -n else n)), r)

/-- The numbers that are given by name. -/
def namedReals : List (List Char × Binary64) :=
  [("inf".toList, .infinite false), ("nan".toList, .nan), ("-inf".toList, .infinite true),
   ("+inf".toList, .infinite false), ("-nan".toList, .nan), ("+nan".toList, .nan)]

/-- A number. -/
def number? (s : List Char) : Option (Except Problem Value × List Char) :=
  match basedInteger? s with
  | some (n, r) => some (.ok (.int n), r)
  | none =>
    match decimal? s with
    | some found => some found
    | none => (namedReals.find? fun p => p.1.isPrefixOf s).map fun p =>
        (.ok (.real p.2), s.drop p.1.length)

/-! ### Dates and times -/

/-- Exactly `n` digits and their value. -/
def digits? (n : Nat) (s : List Char) : Option (Nat × List Char) :=
  let ds := s.take n
  if ds.length = n ∧ ds.all Char.isDigit then some (digitsValue ds, s.drop n) else none

/-- Two digits with a value in a range. -/
def twoDigits? (low high : Nat) (s : List Char) : Option (Nat × List Char) := do
  let (n, r) ← digits? 2 s
  if low ≤ n ∧ n ≤ high then return (n, r) else none

/-- A character that has to stand here. -/
def mark? (c : Char) : List Char → Option (List Char)
  | d :: r => if d = c then some r else none
  | [] => none

/-- A calendar date, whose day may be too large for its month. -/
def date? (s : List Char) : Option (Date × List Char) := do
  let (year, r) ← digits? 4 s
  let r ← mark? '-' r
  let (month, r) ← twoDigits? 1 12 r
  let r ← mark? '-' r
  let (day, r) ← twoDigits? 1 31 r
  return (⟨year, month, day⟩, r)

/-- The microseconds of a fraction of a second: six digits, the missing ones zero. -/
def microseconds (ds : List Char) : Nat :=
  digitsValue ((ds ++ List.replicate 6 '0').take 6)

/-- A time of day. -/
def time? (s : List Char) : Option (TimeOfDay × List Char) := do
  let (hour, r) ← twoDigits? 0 23 s
  let r ← mark? ':' r
  let (minute, r) ← twoDigits? 0 59 r
  let r ← mark? ':' r
  let (second, r) ← twoDigits? 0 59 r
  match r with
  | '.' :: f =>
    let (ds, rest) := spanDigits f
    -- a point without digits stays with the rest
    if ds = [] then return (⟨hour, minute, second, 0⟩, r)
    else return (⟨hour, minute, second, microseconds ds⟩, rest)
  | _ => return (⟨hour, minute, second, 0⟩, r)

/-- An offset from universal time in minutes. -/
def offset? : List Char → Option (Int × List Char)
  | c :: r =>
    if c = 'Z' ∨ c = 'z' then some (0, r)
    else if c = '+' ∨ c = '-' then do
      let (hours, r) ← twoDigits? 0 23 r
      let r ← mark? ':' r
      let (minutes, r) ← twoDigits? 0 59 r
      let total := ((hours * 60 + minutes : Nat) : Int)
      return (if c = '-' then -total else total, r)
    else none
  | [] => none

/-- The time and the offset behind a date, if they are there. -/
def timeBehindDate? : List Char → Option ((TimeOfDay × Option Int) × List Char)
  | c :: r =>
    if c = 'T' ∨ c = 't' ∨ c = ' ' then do
      let (t, r) ← time? r
      match offset? r with
      | some (o, r) => return ((t, some o), r)
      | none => return ((t, none), r)
    else none
  | [] => none

/-- A date, a date with a time, or a time. -/
def moment? (s : List Char) : Option (Except Problem Value × List Char) :=
  match date? s with
  | some (d, r) =>
    let (m, r) := match timeBehindDate? r with
      | some ((t, o), r) => (Moment.dateTime d t o, r)
      | none => (Moment.date d, r)
    -- a day that its month does not have is found only after the whole text is read
    if d.isValid then some (.ok (.moment m), r)
    else some (refuse s "Invalid date or datetime", r)
  | none => (time? s).map fun (t, r) => (.ok (.moment (.time t)), r)

/-! ### Texts -/

/-- The escapes of one letter. -/
def shortEscape? (c : Char) : Option Char :=
  if c = 'b' then some '\x08'
  else if c = 't' then some '\t'
  else if c = 'n' then some '\n'
  else if c = 'f' then some '\x0c'
  else if c = 'r' then some '\r'
  else if c = Text.quote then some Text.quote
  else if c = '\\' then some '\\'
  else none

/-- A character that is given by hexadecimal digits. -/
def hexChar (count : Nat) (s : List Char) : Except Problem (List Char × List Char) :=
  let ds := s.take count
  if ds.length = count ∧ ds.all fun c => (Json.hexValue? c).isSome then
    let n := valueIn 16 ds
    let rest := s.drop count
    if n.isValidChar then .ok ([Char.ofNat n], rest)
    else refuse rest "Escaped character is not a Unicode scalar value"
  else refuse s "Invalid hex value"

/-- The complaint about a backslash that starts no escape. -/
def strayBackslash : String := "Unescaped '\\' in a string"

/-- What an escape stands for; `s` is behind the backslash. In a text of several lines a backslash at
the end of a line hides the line end and the blanks around it. -/
def readEscape (lines : Bool) (s : List Char) : Except Problem (List Char × List Char) :=
  match s with
  | [] => refuse [] strayBackslash
  | c :: r =>
    if lines && c == '\n' then .ok ([], skipGapLines r)
    else if lines && isGap c then
      match skipGap r with
      | [] => .ok ([], [])
      | '\n' :: r => .ok ([], skipGapLines r)
      | r => refuse r strayBackslash
    else if c = 'u' then hexChar 4 r
    else if c = 'U' then hexChar 8 r
    else
      match shortEscape? c with
      | some d => .ok ([d], r)
      | none => refuse r strayBackslash

/-- A text with escapes behind its opening mark; `found` holds its characters, latest first. -/
def readBasic (lines : Bool) : Nat → List Char → List Char →
    Except Problem (List Char × List Char)
  | 0, s, _ => refuse s "Unterminated string"
  | _ + 1, [], _ => refuse [] "Unterminated string"
  | n + 1, c :: r, found =>
    if c = Text.quote then
      if !lines then .ok (found.reverse, r)
      -- one or two marks inside a text of several lines belong to it
      else if [Text.quote, Text.quote].isPrefixOf r then .ok (found.reverse, r.drop 2)
      else readBasic lines n r (c :: found)
    else if c = '\\' then
      match readEscape lines r with
      | .ok (cs, r) => readBasic lines n r (cs.reverse ++ found)
      | .error e => .error e
    else if (if lines then isIllegalInLines c else isIllegal c) then
      refuse (c :: r) ("Illegal character " ++ String.ofList (Text.quoted [c]))
    else readBasic lines n r (c :: found)

/-- A text without escapes behind its opening mark. -/
def readLiteral (s : List Char) : Except Problem (List Char × List Char) :=
  (skipUntil [Text.apostrophe] true isIllegal s).map fun (taken, rest) => (taken, rest.drop 1)

/-- Up to two marks that stand before the three that close a text belong to it. -/
def closingMarks (delimiter : Char) (text rest : List Char) : List Char × List Char :=
  let extra := min 2 (rest.takeWhile (· == delimiter)).length
  (text ++ List.replicate extra delimiter, rest.drop extra)

/-- A text of several lines behind its three opening marks. A line end right behind them does not
belong to it. -/
def readBlock (delimiter : Char) (s : List Char) : Except Problem (List Char × List Char) := do
  let s := match s with
    | '\n' :: r => r
    | s => s
  if delimiter = Text.apostrophe then
    let (taken, rest) ← skipUntil (List.replicate 3 delimiter) true isIllegalInLines s
    return closingMarks delimiter taken (rest.drop 3)
  else
    let (taken, rest) ← readBasic true (s.length + 1) s []
    return closingMarks delimiter taken rest

/-- A quoted text; `block` allows the form of several lines. -/
def readQuoted (block : Bool) (delimiter : Char) (r : List Char) :
    Except Problem (String × List Char) := do
  let (text, rest) ←
    if block && [delimiter, delimiter].isPrefixOf r then readBlock delimiter (r.drop 2)
    else if delimiter = Text.apostrophe then readLiteral r
    else readBasic false (r.length + 1) r []
  return (String.ofList text, rest)

end ScriptHealth.Toml
