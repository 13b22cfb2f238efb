import ScriptHealth.Script.Node

/-!
# Pieces of a script text

While a script is read, its nodes are pieces that know where they start and end. A reader of pieces
starts on a token and leaves the place directly behind what it has read; blanks and comments in
between are read as a gap. A comment belongs to the innermost node that has a child before it and
a child after it.

## Main definitions

* `Place` is a place in the text, `Parse` a reader that may fail
* `Piece` is a node with its extent
* `gap`, `chain`, `many`, `either` put readers together
-/

namespace ScriptHealth.Script

/-- A place in a text: what follows, how many characters that is, and how many characters and line
feeds stand before it. -/
structure Place where
  rest : List Char
  left : Nat
  offset : Nat := 0
  row : Nat := 0

/-- The start of a text. -/
def Place.start (text : List Char) : Place := { rest := text, left := text.length }

/-- The place behind the next character. -/
def Place.step (p : Place) : Place :=
  match p.rest with
  | [] => p
  | c :: r => ⟨r, p.left - 1, p.offset + 1, if c = '\n' then p.row + 1 else p.row⟩

/-- The place behind the next `n` characters. -/
def Place.advance (n : Nat) (p : Place) : Place := Nat.repeat Place.step n p

/-- A node with its extent: the offsets of its first character and behind its last one. -/
inductive Piece where
  | mk (kind : String) (field? : Option String) (named : Bool) (start stop row : Nat)
      (children : List Piece)
  deriving Inhabited

namespace Piece

/-- The kind of a piece. -/
def kind : Piece → String
  | .mk k .. => k

/-- The offset of the first character. -/
def start : Piece → Nat
  | .mk _ _ _ s .. => s

/-- The offset behind the last character. -/
def stop : Piece → Nat
  | .mk _ _ _ _ e .. => e

/-- The row of the first character. -/
def row : Piece → Nat
  | .mk _ _ _ _ _ r _ => r

/-- The children of a piece. -/
def children : Piece → List Piece
  | .mk _ _ _ _ _ _ cs => cs

/-- The piece in a field of its parent. -/
def into (field : String) : Piece → Piece
  | .mk k _ n s e r cs => .mk k (some field) n s e r cs

/-- The piece with another kind. -/
def renamed (kind : String) : Piece → Piece
  | .mk _ f n s e r cs => .mk kind f n s e r cs

/-- A node around a first piece and the pieces behind it. -/
def around (kind : String) (first : Piece) (others : List Piece) : Piece :=
  .mk kind none true first.start (((first :: others).getLast?.map stop).getD first.stop) first.row
    (first :: others)

mutual

/-- The node of a piece of a text. -/
def toNode (source : Array Char) : Piece → Node
  | .mk k f n s e r cs =>
    .mk k (some (String.ofList (source.extract s e).toList)) r f n (toNodes source cs)

/-- The nodes of pieces of a text. -/
def toNodes (source : Array Char) : List Piece → List Node
  | [] => []
  | p :: ps => toNode source p :: toNodes source ps

end

end Piece

/-- A reader: it takes a place and gives a result with the place behind it, or fails. -/
abbrev Parse (α : Type) := StateT Place Option α

namespace Parse

/-- The reader that fails. -/
def fail {α : Type} : Parse α := fun _ => none

/-- Read by `p`, or by `q` when `p` fails. -/
def either {α : Type} (p q : Parse α) : Parse α := fun s =>
  match p s with
  | some r => some r
  | none => q s

/-- Try readers in order. -/
def firstOf {α : Type} : List (Parse α) → Parse α
  | [] => fail
  | p :: ps => either p (firstOf ps)

/-- Go on only if a condition holds. -/
def ensure (b : Bool) : Parse Unit := if b then pure () else fail

/-- The text that follows. -/
def look : Parse (List Char) := do return (← get).rest

/-- The number of characters that follow. -/
def left : Parse Nat := do return (← get).left

/-- Pass over `n` characters. -/
def skip (n : Nat) : Parse Unit := modify (Place.advance n)

/-- The result of a reader without moving. -/
def ahead {α : Type} (p : Parse α) : Parse α := do
  let s ← get
  let a ← p
  set s
  return a

/-- A leaf over the characters that `scan` passes over. -/
def leaf (kind : String) (named : Bool) (scan : Parse Unit) : Parse Piece := do
  let s ← get
  scan
  let e ← get
  return .mk kind none named s.offset e.offset s.row []

/-- A node over the pieces that `body` reads. -/
def node (kind : String) (body : Parse (List Piece)) : Parse Piece := do
  let s ← get
  let cs ← body
  let e ← get
  return .mk kind none true s.offset e.offset s.row cs

/-! ### Gaps -/

/-- Blank characters of a script: Unicode white space, the byte order mark, the word joiner and the
zero width space. -/
def isSpace (c : Char) : Bool :=
  let n := c.toNat
  (9 ≤ n && n ≤ 13) || n == 32 || n == 0x85 || n == 0xA0 || n == 0x1680 ||
    (0x2000 ≤ n && n ≤ 0x200B) || n == 0x2028 || n == 0x2029 || n == 0x202F || n == 0x205F ||
    n == 0x2060 || n == 0x3000 || n == 0xFEFF

/-- Characters that end a comment to the end of the line. -/
def endsLine (c : Char) : Bool := c == '\n' || c == '\r' || c.toNat == 0x2028 || c.toNat == 0x2029

/-- Characters behind which a statement may end without a semicolon. -/
def breaksLine (c : Char) : Bool := c == '\n' || c.toNat == 0x2028 || c.toNat == 0x2029

/-- The number of characters up to and with the end of a block comment. -/
def blockCommentLength : Nat → List Char → Option Nat
  | _, [] => none
  | n, '*' :: '/' :: _ => some (n + 2)
  | n, _ :: r => blockCommentLength (n + 1) r

/-- The length of a comment at the start of a text. -/
def commentLength? : List Char → Option Nat
  | '/' :: '/' :: r => some (2 + (r.takeWhile fun c => !endsLine c).length)
  | '/' :: '*' :: r => blockCommentLength 2 r
  | _ => none

/-- Pass over blanks and comments; the comments are kept. -/
def gapLoop : Nat → List Piece → Parse (List Piece)
  | 0, found => return found.reverse
  | n + 1, found => do
    let text ← look
    match text with
    | [] => return found.reverse
    | c :: r =>
      if isSpace c then
        skip (1 + (r.takeWhile isSpace).length)
        gapLoop n found
      else
        match commentLength? text with
        | some k =>
          let comment ← leaf "comment" true (skip k)
          gapLoop n (comment :: found)
        | none => return found.reverse

/-- Pass over blanks and comments up to the next token; the comments are kept. -/
def gap : Parse (List Piece) := do gapLoop ((← left) + 1) []

/-- Whether the statement may end here without a semicolon: a line ends before the next token. -/
def lineEndsBefore : Parse Bool := do
  let s ← get
  let _ ← gap
  let e ← get
  set s
  return (s.rest.take (e.offset - s.offset)).any breaksLine

/-! ### Sequences -/

/-- One piece as a list. -/
def one (p : Parse Piece) : Parse (List Piece) := do return [← p]

/-- One piece as a list, in a field of its parent. -/
def oneInto (field : String) (p : Parse Piece) : Parse (List Piece) := do
  return [(← p).into field]

/-- Pieces that may be missing. -/
def opt (p : Parse (List Piece)) : Parse (List Piece) := either p (pure [])

/-- Pass over a gap and read; nothing is passed over when nothing is read. -/
def after (p : Parse (List Piece)) : Parse (List Piece) := do
  let s ← get
  let comments ← gap
  let found ← p
  -- a part that was optional leaves the gap to the part behind it
  if found.isEmpty then
    set s
    return []
  else return comments ++ found

/-- Pass over a gap and read one thing. -/
def next {α : Type} (p : Parse α) : Parse α := do
  let _ ← gap
  p

/-- Read one part after the other, with gaps in between. -/
def chain : List (Parse (List Piece)) → Parse (List Piece)
  | [] => return []
  | p :: ps => do
    let first ← p
    let others ← ps.mapM after
    return first ++ others.flatten

/-- Repeat a reader with gaps in between, as long as it reads something. -/
def manyLoop (p : Parse (List Piece)) : Nat → List (List Piece) → Parse (List Piece)
  | 0, found => return found.reverse.flatten
  | n + 1, found => do
    let more ← opt (after p)
    -- a reader that reads nothing would repeat for ever
    if more.isEmpty then return found.reverse.flatten else manyLoop p n (more :: found)

/-- Repeat a reader, as often as it reads something. -/
def many (p : Parse (List Piece)) : Parse (List Piece) := do
  let first ← opt p
  if first.isEmpty then return []
  else manyLoop p ((← left) + 1) [first]

end Parse

end ScriptHealth.Script
