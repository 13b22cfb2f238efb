import ScriptHealth.Value.Basic

/-!
# Nested tables

A key is a path of names. Opening the table behind a key creates the tables on the way; the way leads
into the last item of a list of tables. Some keys are closed: what a value in brackets or braces holds
is never changed, and a table is declared only once.

## Main definitions

* `Toml.within` changes the table behind a key
* `Toml.Marks` remembers the keys that are closed
-/

namespace ScriptHealth.Toml

/-- A path of names. -/
abbrev Key := List String

/-- The text of a key: its names in parentheses. -/
def keyText (key : Key) : String :=
  match key with
  | [name] => "(" ++ Value.quotedText name ++ ",)"
  | names => "(" ++ ", ".intercalate (names.map Value.quotedText) ++ ")"

/-- Why a table cannot be changed. -/
inductive Blocked where
  /-- Something on the way is no table. -/
  | noTable
  /-- The name is in use. -/
  | taken
  deriving DecidableEq, Repr

/-- Change the table behind a key, creating the tables on the way. With `intoLists` the way leads
into the last table of a list. -/
def within (intoLists : Bool) (change : OrderedMap Value → Except Blocked (OrderedMap Value)) :
    Key → OrderedMap Value → Except Blocked (OrderedMap Value)
  | [], table => change table
  | name :: rest, table =>
    match table.get? name with
    | none => (within intoLists change rest []).map fun t => table.insert name (.map t)
    | some (.map inner) =>
      (within intoLists change rest inner).map fun t => table.insert name (.map t)
    | some (.list items) =>
      match intoLists, items.getLast? with
      | true, some (.map inner) => (within intoLists change rest inner).map fun t =>
          table.insert name (.list (items.dropLast ++ [.map t]))
      | _, _ => .error .noTable
    | some _ => .error .noTable

/-- Add an entry to a table under a new name. -/
def addEntry (name : String) (v : Value) (table : OrderedMap Value) :
    Except Blocked (OrderedMap Value) :=
  if table.contains name then .error .taken else .ok (table.insert name v)

/-- Add an empty table to the list of tables under a name. -/
def addItem (name : String) (table : OrderedMap Value) : Except Blocked (OrderedMap Value) :=
  match table.get? name with
  | none => .ok (table.insert name (.list [.map []]))
  | some (.list items) => .ok (table.insert name (.list (items ++ [.map []])))
  | some _ => .error .noTable

/-- The keys that are closed. -/
structure Marks where
  /-- Nothing at or below such a key is changed. -/
  frozen : List Key := []
  /-- Such a key is not declared as a table again. -/
  declared : List Key := []

namespace Marks

/-- Whether a key is at or below a frozen one. -/
def isFrozen (m : Marks) (key : Key) : Bool := m.frozen.any (·.isPrefixOf key)

/-- Whether a key has been declared. -/
def isDeclared (m : Marks) (key : Key) : Bool := m.declared.contains key

/-- Freeze a key and all below it. -/
def freeze (m : Marks) (key : Key) : Marks := { m with frozen := key :: m.frozen }

/-- Declare keys. -/
def declare (m : Marks) (keys : List Key) : Marks := { m with declared := keys ++ m.declared }

/-- Forget everything about a key and what is below it. -/
def release (m : Marks) (key : Key) : Marks where
  frozen := m.frozen.filter fun k => !key.isPrefixOf k
  declared := m.declared.filter fun k => !key.isPrefixOf k

end Marks

/-- Whether a value is a list or a table. -/
def isNested : Value → Bool
  | .list _ | .map _ => true
  | _ => false

end ScriptHealth.Toml
