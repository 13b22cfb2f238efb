import ScriptHealth.Data.OrderedMap

/-!
# Entries of a file tree

A tree holds files with their bytes, symbolic links with the text of their target, and folders with
named entries. A folder may be closed to the program: it is there, but what is in it can neither be
listed nor reached. No other rights are told apart: files can be read and written, and so can the
folders that are not closed. A location is the list of names that leads to an entry.

## Main definitions

* `Entry.get?` looks up the entry at a location
* `Entry.put` puts an entry at a location of an existing folder
* `Entry.remove` takes the entry at a location away
-/

namespace ScriptHealth

/-- An entry of a file tree. -/
inductive Entry where
  | file (content : ByteArray)
  | link (target : String)
  | folder (entries : List (String × Entry))
  /-- A folder without the rights to list it and to pass it. -/
  | closed

/-- The names that lead from the top of a tree to an entry. -/
abbrev Location := List String

namespace Entry

/-- Whether an entry is a file. -/
def isFile : Entry → Bool
  | .file _ => true
  | _ => false

/-- Whether an entry is a folder that is not closed. -/
def isFolder : Entry → Bool
  | .folder _ => true
  | _ => false

/-- Whether an entry is a folder, closed or not. -/
def isDirectory : Entry → Bool
  | .folder _ | .closed => true
  | _ => false

/-- The entries of a folder; other entries have none. -/
def entries : Entry → List (String × Entry)
  | .folder es => es
  | _ => []

/-- The entry with a name in a folder. -/
def child? (e : Entry) (name : String) : Option Entry := OrderedMap.get? name e.entries

/-- The entry at a location. -/
def get? : Location → Entry → Option Entry
  | [], e => some e
  | name :: rest, e => (e.child? name).bind (get? rest)

/-- Put an entry at a location. Folders that are missing on the way are made; what stands behind a
file, a link or a closed folder cannot be reached and stays as it is. -/
def put : Entry → Location → Entry → Entry
  | _, [], new => new
  | .folder es, name :: rest, new =>
    .folder (OrderedMap.insert name
      (put ((OrderedMap.get? name es).getD (.folder [])) rest new) es)
  | e, _ :: _, _ => e

/-- Take the entry at a location away; the top of a tree stays. -/
def remove : Entry → Location → Entry
  | .folder es, [name] => .folder (OrderedMap.erase name es)
  | .folder es, name :: rest =>
    match OrderedMap.get? name es with
    | some inner => .folder (OrderedMap.insert name (remove inner rest) es)
    | none => .folder es
  | e, _ => e

@[simp] theorem get?_nil (e : Entry) : get? [] e = some e := rfl

theorem get?_cons (name : String) (rest : Location) (e : Entry) :
    get? (name :: rest) e = (e.child? name).bind (get? rest) := rfl

/-- The entry in a folder that is looked up first below a location. -/
theorem get?_append (a b : Location) (e : Entry) :
    get? (a ++ b) e = (get? a e).bind (get? b) := by
  induction a generalizing e with
  | nil => rfl
  | cons name rest ih =>
    simp only [List.cons_append, get?_cons]
    cases e.child? name with
    | none => rfl
    | some inner => exact ih inner

end Entry

end ScriptHealth
