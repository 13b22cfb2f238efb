import ScriptHealth.Fault
import ScriptHealth.Source.Path
import ScriptHealth.Text.Utf8
import ScriptHealth.Workspace.Entry

/-!
# Files by path

A workspace is a file tree with a current folder, a home folder and variables. A path is followed
name by name; links on the way are replaced by their targets, at most forty of them. Reading and
writing fail with the fault of the first name that cannot be passed.

## Main definitions

* `Workspace.find` follows a path to a location
* `Workspace.list` lists a folder
* `Workspace.read`, `Workspace.write`, `Workspace.makeFolders` work on files by path
* `Workspace.look` asks what a path leads to
* `Workspace.realPath` is a path without links
-/

namespace ScriptHealth

/-- Why an operation on a file fails. -/
inductive FileFault where
  | missing
  /-- A folder that is closed. -/
  | denied
  | taken
  | notFolder
  | isFolder
  | nameTooLong
  | tooManyLinks
  /-- A path that holds the character NUL. -/
  | nul
  deriving DecidableEq, Repr

namespace FileFault

/-- The number and the words of a fault. -/
def words : FileFault → Nat × String
  | .missing => (2, "No such file or directory")
  | .denied => (13, "Permission denied")
  | .taken => (17, "File exists")
  | .notFolder => (20, "Not a directory")
  | .isFolder => (21, "Is a directory")
  | .nameTooLong => (36, "File name too long")
  | .tooManyLinks => (40, "Too many levels of symbolic links")
  | .nul => (22, "Invalid argument")

/-- The text of a fault at a path. -/
def text (f : FileFault) (path : String) : String :=
  s!"[Errno {f.words.1}] {f.words.2}: " ++ Value.quotedText path

/-- The fault of an operation at a path. -/
def toFault (f : FileFault) (path : String) : Fault :=
  match f with
  | .nul => .badValue "embedded null byte"
  | f => .system (f.text path)

end FileFault

/-- A file tree with a current folder, a home folder and the variables of the environment. -/
structure Workspace where
  tree : Entry := .folder []
  /-- The absolute path of the current folder. -/
  current : String := "/"
  /-- The absolute path of the home folder. -/
  home : String := "/"
  environment : OrderedMap String := []

namespace Workspace

/-- A path seen from a folder, without segments that say nothing. -/
def under (dir path : String) : String := String.ofList (Path.under dir.toList path.toList)

/-- The absolute form of a path. -/
def absolute (w : Workspace) (path : String) : String := under w.current path

/-- The names of a path. -/
def namesOf (path : String) : List String := (Path.segments path.toList).map String.ofList

/-- The greatest number of bytes in a name. -/
def nameLimit : Nat := 255

/-- The greatest number of bytes in a path. -/
def pathLimit : Nat := 4095

/-- The greatest number of links on a way. -/
def linkLimit : Nat := 40

/-- Follow names from a folder. The last name may be missing; a link in its place is followed only
with `follow`. -/
def followNames (tree : Entry) (follow : Bool) (links : Nat) (here : Location)
    (names : List String) : Except FileFault Location :=
  match names with
  | [] => .ok here
  | name :: rest =>
    if name = "" ∨ name = "." then followNames tree follow links here rest
    else if name = ".." then followNames tree follow links here.dropLast rest
    else if nameLimit < name.utf8ByteSize then .error .nameTooLong
    else
      match tree.get? (here ++ [name]) with
      | none => if rest = [] then .ok (here ++ [name]) else .error .missing
      | some (.file _) => if rest = [] then .ok (here ++ [name]) else .error .notFolder
      | some (.folder _) => followNames tree follow links (here ++ [name]) rest
      | some .closed => if rest = [] then .ok (here ++ [name]) else .error .denied
      | some (.link target) =>
        if rest = [] && !follow then .ok (here ++ [name])
        else
          -- every link costs one, so a ring of links comes to an end
          match links with
          | 0 => .error .tooManyLinks
          | n + 1 =>
            let start := if target.toList.head? = some '/' then [] else here
            followNames tree follow n start (namesOf target ++ rest)
termination_by (links, names.length)

/-- Follow a path to a location, whose last name may be missing. -/
@[irreducible]
def find (w : Workspace) (follow : Bool) (path : String) : Except FileFault Location :=
  let p := w.absolute path
  if p.toList.contains '\x00' then .error .nul
  else if path = "" then .error .missing
  -- the limit is on the path as it was given, not on its absolute form
  else if pathLimit < path.utf8ByteSize then .error .nameTooLong
  else followNames w.tree follow linkLimit [] (namesOf p)

/-- The entry that a path leads to, behind all links. -/
def entry (w : Workspace) (path : String) : Except FileFault Entry := do
  match w.tree.get? (← w.find true path) with
  | some e => return e
  | none => throw .missing

/-- What a path leads to, if anything; only a name that is too long and a closed folder on the way are
faults. -/
def look (w : Workspace) (path : String) : Except Fault (Option Entry) :=
  match w.entry path with
  | .ok e => .ok (some e)
  | .error .nameTooLong => .error (FileFault.nameTooLong.toFault path)
  | .error .denied => .error (FileFault.denied.toFault path)
  | .error _ => .ok none

/-- Whether a path leads to something. -/
def isThere (w : Workspace) (path : String) : Except Fault Bool := (w.look path).map (·.isSome)

/-- Whether a path leads to a file. -/
def isFile (w : Workspace) (path : String) : Except Fault Bool :=
  (w.look path).map fun e => (e.map Entry.isFile).getD false

/-- Whether a path leads to a folder, closed or not. -/
def isFolder (w : Workspace) (path : String) : Except Fault Bool :=
  (w.look path).map fun e => (e.map Entry.isDirectory).getD false

/-- The entries of a folder. -/
def list (w : Workspace) (path : String) : Except FileFault (List (String × Entry)) := do
  match ← w.entry path with
  | .folder es => return es
  | .closed => throw .denied
  | _ => throw .notFolder

/-- The bytes of a file. -/
def read (w : Workspace) (path : String) : Except FileFault ByteArray := do
  match ← w.entry path with
  | .file content => return content
  | .closed => throw .denied
  | _ => throw .isFolder

/-- The bytes of a file as a list. -/
def readBytes (w : Workspace) (path : String) : Except FileFault (List UInt8) :=
  (w.read path).map (·.data.toList)

/-- Write a file, also through a link. It is written as a whole: once its place is found nothing fails,
so there is no full disk, and no entry has a second name through which it changes as well. -/
def write (w : Workspace) (path : String) (content : ByteArray) : Except FileFault Workspace := do
  let place ← w.find true path
  match w.tree.get? place with
  | some (.folder _) | some .closed => throw .isFolder
  | _ => return { w with tree := w.tree.put place (.file content) }

/-- Write a text as UTF-8. -/
def writeText (w : Workspace) (path text : String) : Except FileFault Workspace :=
  w.write path text.toUTF8

/-- Make one folder. -/
def makeFolder (w : Workspace) (path : String) : Except FileFault Workspace := do
  let place ← w.find false path
  match w.tree.get? place with
  | some _ => throw .taken
  | none => return { w with tree := w.tree.put place (.folder []) }

/-- The path of the folder that a path is in. -/
def parentOf (path : String) : String := String.ofList (Path.plainParent path.toList)

/-- Make a folder and the folders that it is in, unless it is there. The workspace holds what was
made before a fault. -/
def makeFolders (w : Workspace) (path : String) : Nat → Workspace × Option Fault
  | 0 => (w, none)
  | n + 1 =>
    match w.makeFolder path with
    | .ok w => (w, none)
    | .error .missing =>
      -- a folder on the way is not there: make it first, then try once more
      if parentOf path = path then (w, some (FileFault.missing.toFault path))
      else
        match w.makeFolders (parentOf path) n with
        | (w, some f) => (w, some f)
        | (w, none) =>
          match w.makeFolder path with
          | .ok w => (w, none)
          | .error f => (w, keepUnlessFolder w path f)
    | .error f => (w, keepUnlessFolder w path f)
where
  /-- The fault of making a folder, unless the folder is there. -/
  keepUnlessFolder (w : Workspace) (path : String) (f : FileFault) : Option Fault :=
    match f, w.isFolder path with
    | .nul, _ => some (f.toFault path)
    | _, .ok true => none
    | _, .ok false => some (f.toFault path)
    | _, .error e => some e

/-- Put an entry at a path, with the folders that it is in. -/
def place (w : Workspace) (path : String) (e : Entry) : Workspace :=
  let (w, _) := w.makeFolders (parentOf path) (path.length + 1)
  match w.find false path with
  | .ok place => { w with tree := w.tree.put place e }
  | .error _ => w

/-- Take the entry at a path away; a link is taken away itself. -/
def remove (w : Workspace) (path : String) : Workspace :=
  match w.find false path with
  | .ok place => { w with tree := w.tree.remove place }
  | .error _ => w

/-- Replace links in names from a folder; names that lead nowhere stay as they are. -/
def replaceLinks (tree : Entry) (links : Nat) (here : Location) (names : List String) :
    Option Location :=
  match names with
  | [] => some here
  | name :: rest =>
    if name = "" ∨ name = "." then replaceLinks tree links here rest
    else if name = ".." then replaceLinks tree links here.dropLast rest
    else
      match tree.get? (here ++ [name]) with
      | some (.link target) =>
        match links with
        | 0 => none
        | n + 1 =>
          let start := if target.toList.head? = some '/' then [] else here
          replaceLinks tree n start (namesOf target ++ rest)
      | _ => replaceLinks tree links (here ++ [name]) rest
termination_by (links, names.length)

/-- The absolute path of a location. -/
def pathOf (place : Location) : String := "/" ++ "/".intercalate place

/-- The absolute path without links. At most forty links are replaced, as on the way of a path that
leads anywhere; more of them count as links that lead to each other, even if they come to an end. -/
def realPath (w : Workspace) (path : String) : Except Fault String :=
  match replaceLinks w.tree linkLimit [] (namesOf (w.absolute path)) with
  | some place => .ok (pathOf place)
  | none => .error .linkLoop

end Workspace

end ScriptHealth
