import ScriptHealth.Text.Quoted

/-!
# Scanning TOML text

The scanners work on the characters that remain. A problem is placed by the number of characters that
are left where it is found, and turned into a line and a column when the whole text is at hand.

## Main definitions

* `Toml.Problem` is why a text is refused
* `Toml.placeText` gives the line and the column of a place
* `Toml.skipUntil` passes over everything up to a mark
-/

namespace ScriptHealth.Toml

/-- Why a text is refused. -/
inductive Problem where
  | malformed (message : String) (left : Nat)
  | tooManyDigits (count : Nat)
  deriving DecidableEq, Repr

/-- Refuse the text at the characters that remain. -/
def refuse {α : Type} (rest : List Char) (message : String) : Except Problem α :=
  .error (.malformed message rest.length)

/-- The line and the column of the place with `left` characters behind it. -/
def placeText (source : List Char) (left : Nat) : String :=
  if left = 0 then "end of document"
  else
    let before := source.take (source.length - left)
    let line := before.count '\n' + 1
    let column := (before.reverse.takeWhile (· != '\n')).length + 1
    s!"line {line}, column {column}"

/-- Write a carriage return and a line feed as a line feed. -/
def joinBreaks : List Char → List Char
  | '\r' :: '\n' :: r => '\n' :: joinBreaks r
  | c :: r => c :: joinBreaks r
  | [] => []

/-- The blanks inside a line. -/
def isGap (c : Char) : Bool := c == ' ' || c == '\t'

/-- Pass over blanks. -/
def skipGap (s : List Char) : List Char := s.dropWhile isGap

/-- Pass over blanks and line ends. -/
def skipGapLines (s : List Char) : List Char := s.dropWhile fun c => isGap c || c == '\n'

/-- The characters that are allowed in no line: controls other than the tab. -/
def isIllegal (c : Char) : Bool := (c.toNat < 32 && c != '\t') || c.toNat == 127

/-- The characters that are allowed in no text of several lines. -/
def isIllegalInLines (c : Char) : Bool := isIllegal c && c != '\n'

/-- The part of a text before the first place where a mark stands, and the text from there on. -/
def breakAt? (stop : List Char) : List Char → Option (List Char × List Char)
  | [] => if stop = [] then some ([], []) else none
  | c :: r =>
    if stop.isPrefixOf (c :: r) then some ([], c :: r)
    else (breakAt? stop r).map fun (taken, rest) => (c :: taken, rest)

/-- Pass over everything up to a mark. Without the mark the text is refused if the mark is needed,
and passed over to its end otherwise; what is passed over may hold no illegal character. -/
def skipUntil (stop : List Char) (needed : Bool) (illegal : Char → Bool) (s : List Char) :
    Except Problem (List Char × List Char) :=
  let check (taken rest : List Char) : Except Problem (List Char × List Char) :=
    match taken.dropWhile (!illegal ·) with
    | [] => .ok (taken, rest)
    | c :: r => refuse (c :: r ++ rest)
        ("Found invalid character " ++ String.ofList (Text.quoted [c]))
  match breakAt? stop s with
  | some (taken, rest) => check taken rest
  | none =>
    if needed then refuse [] ("Expected " ++ String.ofList (Text.quoted stop)) else check s []

/-- Pass over a comment, if there is one. -/
def skipComment (s : List Char) : Except Problem (List Char) :=
  match s with
  | '#' :: r => (skipUntil ['\n'] false isIllegal r).map (·.2)
  | s => .ok s

/-- Pass over blanks, line ends and comments. -/
def skipAll : Nat → List Char → Except Problem (List Char)
  | 0, s => .ok s
  | n + 1, s => do
    let rest ← skipComment (skipGapLines s)
    if rest.length = s.length then return rest else skipAll n rest

/-- Digits with single underscores between them, without the underscores, and the rest. -/
def spanSeparated (isDigit : Char → Bool) : List Char → List Char × List Char
  | '_' :: c :: r =>
    if isDigit c then
      let (ds, rest) := spanSeparated isDigit r
      (c :: ds, rest)
    else ([], '_' :: c :: r)
  | c :: r =>
    if isDigit c then
      let (ds, rest) := spanSeparated isDigit r
      (c :: ds, rest)
    else ([], c :: r)
  | [] => ([], [])

/-- Digits that start with a digit, with single underscores between them. -/
def digitRun? (isDigit : Char → Bool) : List Char → Option (List Char × List Char)
  | c :: r =>
    if isDigit c then
      let (ds, rest) := spanSeparated isDigit r
      some (c :: ds, rest)
    else none
  | [] => none

end ScriptHealth.Toml
