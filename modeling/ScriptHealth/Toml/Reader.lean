import ScriptHealth.Toml.Scalar
import ScriptHealth.Toml.Table

/-!
# Reading TOML text

A document is a sequence of lines: entries `key = value`, headers of tables `[key]`, headers of items
in a list of tables `[[key]]`, comments and empty lines. Entries belong to the table of the latest
header.

## Main definitions

* `Toml.readValue` reads a value
* `Toml.parse` reads a document
-/

namespace ScriptHealth.Toml

/-! ### Keys -/

/-- The characters of a name without quotes. -/
def isNameChar (c : Char) : Bool := c.isAlphanum || c == '-' || c == '_'

/-- The characters that a key starts with. -/
def startsKey (c : Char) : Bool := isNameChar c || c == Text.quote || c == Text.apostrophe

/-- One name of a key. -/
def readName (s : List Char) : Except Problem (String × List Char) :=
  match s with
  | [] => refuse [] "Invalid initial character for a key part"
  | c :: r =>
    if isNameChar c then
      .ok (String.ofList ((c :: r).takeWhile isNameChar), (c :: r).dropWhile isNameChar)
    else if c = Text.quote ∨ c = Text.apostrophe then readQuoted false c r
    else refuse (c :: r) "Invalid initial character for a key part"

/-- The names of a key behind its first one. -/
def readNames : Nat → Key → List Char → Except Problem (Key × List Char)
  | 0, names, s => .ok (names.reverse, s)
  | n + 1, names, s =>
    match skipGap s with
    | '.' :: r => do
      let (name, r) ← readName (skipGap r)
      readNames n (name :: names) r
    | s => .ok (names.reverse, s)

/-- A key: names with dots between them. -/
def readKey (s : List Char) : Except Problem (Key × List Char) := do
  let (name, r) ← readName s
  readNames (r.length + 1) [name] r

/-- The sign between a key and its value. -/
def readEquals (s : List Char) : Except Problem (List Char) :=
  match s with
  | '=' :: r => .ok (skipGap r)
  | s => refuse s "Expected '=' after a key in a key/value pair"

/-! ### Values -/

/-- A value that is no list and no table. -/
def readScalar (s : List Char) : Except Problem (Value × List Char) :=
  let found := match moment? s with
    | some found => some found
    | none => number? s
  match found with
  | some (v, r) => v.map (·, r)
  | none => refuse s "Invalid value"

mutual

/-- A value. -/
def readValue : Nat → List Char → Except Problem (Value × List Char)
  | 0, s => refuse s "Invalid value"
  | n + 1, s =>
    match s with
    | '\x22' :: r => (readQuoted true Text.quote r).map fun (t, r) => (.str t, r)
    | '\x27' :: r => (readQuoted true Text.apostrophe r).map fun (t, r) => (.str t, r)
    | 't' :: 'r' :: 'u' :: 'e' :: r => .ok (.bool true, r)
    | 'f' :: 'a' :: 'l' :: 's' :: 'e' :: r => .ok (.bool false, r)
    | '[' :: r => do readItems n [] (← skipAll (r.length + 1) r)
    | '\x7b' :: r =>
      match skipGap r with
      | '\x7d' :: r => .ok (.map [], r)
      | r => readEntries n [] {} r
    | s => readScalar s

/-- The items of a list up to its closing bracket; blanks before the next one have been passed. -/
def readItems : Nat → List Value → List Char → Except Problem (Value × List Char)
  | 0, _, s => refuse s "Unclosed array"
  | n + 1, found, s =>
    match s with
    | ']' :: r => .ok (.list found.reverse, r)
    | s => do
      let (v, r) ← readValue n s
      let r ← skipAll (r.length + 1) r
      match r with
      | ']' :: r => return (.list (v :: found).reverse, r)
      | ',' :: r => readItems n (v :: found) (← skipAll (r.length + 1) r)
      | r => refuse r "Unclosed array"

/-- The entries of a table in braces, at least one, up to its closing brace. -/
def readEntries : Nat → OrderedMap Value → Marks → List Char → Except Problem (Value × List Char)
  | 0, _, _, s => refuse s "Unclosed inline table"
  | n + 1, table, marks, s => do
    let (key, r) ← readKey s
    let (v, r) ← readValue n (← readEquals r)
    if marks.isFrozen key then
      refuse r ("Cannot mutate immutable namespace " ++ keyText key)
    else
      let name := key.getLastD ""
      match within false (addEntry name v) key.dropLast table with
      | .error .noTable => refuse r "Cannot overwrite a value"
      | .error .taken => refuse r ("Duplicate inline table key " ++ Value.quotedText name)
      | .ok table =>
        match skipGap r with
        | '\x7d' :: r => return (.map table, r)
        | ',' :: r =>
          readEntries n table (if isNested v then marks.freeze key else marks) (skipGap r)
        | r => refuse r "Unclosed inline table"

end

/-! ### Documents -/

/-- What has been read of a document. -/
structure Document where
  table : OrderedMap Value := []
  marks : Marks := {}
  /-- Keys that become declared at the next header. -/
  pending : List Key := []
  /-- The key of the latest header. -/
  header : Key := []

namespace Document

/-- The keys between a table and an entry in it. -/
def keysBetween (header key : Key) : List Key :=
  (List.range (key.length - 1)).map fun i => header ++ key.take (i + 1)

/-- Take an entry into the document; problems are placed at `rest`. -/
def putEntry (d : Document) (key : Key) (v : Value) (rest : List Char) :
    Except Problem Document := do
  let between := keysBetween d.header key
  if let some k := between.find? d.marks.isDeclared then
    refuse rest ("Cannot redefine namespace " ++ keyText k)
  let parent := d.header ++ key.dropLast
  if d.marks.isFrozen parent then
    refuse rest ("Cannot mutate immutable namespace " ++ keyText parent)
  match within true (addEntry (key.getLastD "") v) parent d.table with
  | .error _ => refuse rest "Cannot overwrite a value"
  | .ok table =>
    return { d with
      table, pending := between ++ d.pending
      marks := if isNested v then d.marks.freeze (d.header ++ key) else d.marks }

/-- The document at a new header. -/
def atHeader (d : Document) : Document :=
  { d with marks := d.marks.declare d.pending, pending := [] }

/-- Open a table. -/
def openTable (d : Document) (key : Key) (rest : List Char) : Except Problem Document :=
  if d.marks.isDeclared key || d.marks.isFrozen key then
    refuse rest ("Cannot declare " ++ keyText key ++ " twice")
  else
    match within true .ok key d.table with
    | .error _ => refuse rest "Cannot overwrite a value"
    | .ok table => .ok { d with table, marks := d.marks.declare [key], header := key }

/-- Add a table to a list of tables and open it. -/
def openItem (d : Document) (key : Key) (rest : List Char) : Except Problem Document :=
  if d.marks.isFrozen key then
    refuse rest ("Cannot mutate immutable namespace " ++ keyText key)
  else
    match within true (addItem (key.getLastD "")) key.dropLast d.table with
    | .error _ => refuse rest "Cannot overwrite a value"
    | .ok table =>
      .ok { d with table, marks := (d.marks.release key).declare [key], header := key }

/-- A header of a table or of an item. -/
def readHeader (d : Document) (r : List Char) : Except Problem (Document × List Char) :=
  let d := d.atHeader
  match r with
  | '[' :: r => do
    let (key, r) ← readKey (skipGap r)
    let d ← d.openItem key r
    match r with
    | ']' :: ']' :: r => return (d, r)
    | r => refuse r "Expected ']]' at the end of an array declaration"
  | r => do
    let (key, r) ← readKey (skipGap r)
    let d ← d.openTable key r
    match r with
    | ']' :: r => return (d, r)
    | r => refuse r "Expected ']' at the end of a table declaration"

/-- What a line holds besides blanks and a comment. -/
def readStatement (d : Document) (s : List Char) : Except Problem (Document × List Char) :=
  match s with
  | '[' :: r => d.readHeader r
  | '#' :: _ => .ok (d, s)
  | c :: _ =>
    if startsKey c then do
      let (key, r) ← readKey s
      let r ← readEquals r
      let (v, r) ← readValue (2 * r.length + 2) r
      return (← d.putEntry key v r, r)
    else refuse s "Invalid statement"
  | [] => .ok (d, [])

/-- Read lines to the end of the text. -/
def readLines : Nat → Document → List Char → Except Problem Document
  | 0, d, _ => .ok d
  | n + 1, d, s =>
    match skipGap s with
    | [] => .ok d
    | '\n' :: r => readLines n d r
    | s => do
      let (d, r) ← d.readStatement s
      match ← skipComment (skipGap r) with
      | [] => return d
      | '\n' :: r => readLines n d r
      | r => refuse r "Expected newline or end of document after a statement"

end Document

/-- Why a document is refused: the text of the complaint, or the length of an integer. -/
inductive Fault where
  | malformed (text : String)
  | tooManyDigits (count : Nat)
  deriving DecidableEq, Repr

/-- Read a document, however deep its arrays and tables are nested. -/
def parse (text : List Char) : Except Fault (OrderedMap Value) :=
  let source := joinBreaks text
  match Document.readLines (source.length + 1) {} source with
  | .ok d => .ok d.table
  | .error (.malformed message left) =>
    .error (.malformed (message ++ " (at " ++ placeText source left ++ ")"))
  | .error (.tooManyDigits count) => .error (.tooManyDigits count)

end ScriptHealth.Toml
