import ScriptHealth.Workspace.Access

/-!
# Running through a file tree

The files of a project are listed folder by folder: first the files of a folder by name, then its
folders by name. Hidden names are left out, and so are the folders and files that are excluded by
name. A link counts as what it leads to, but it is never followed into a folder; a link that leads
nowhere counts as a file. On the way down the path of the first folder grows by a name for each
folder. A folder whose path has become too long cannot be listed, and neither can a closed one: such
a folder is passed over.

## Main definitions

* `Selection` says which files are listed
* `Workspace.filesBelow` lists the files below a folder
* `Workspace.skippedBelow` tells the folders that are passed over
* `Workspace.sizeBelow` adds up the sizes of the files below a folder
-/

namespace ScriptHealth

/-- Which files of a project are listed. -/
structure Selection where
  extensions : List String
  excludeFolders : List String
  excludeFiles : List String

namespace Selection

/-- Whether a name is hidden. -/
def isHidden (name : String) : Bool := name.toList.head? == some '.'

/-- Whether a file is listed. -/
def takesFile (s : Selection) (name : String) : Bool :=
  !s.excludeFiles.contains name && !isHidden name &&
    s.extensions.contains (String.ofList (Path.nameSuffix name.toList))

/-- Whether a folder is entered. -/
def entersFolder (s : Selection) (name : String) : Bool :=
  !s.excludeFolders.contains name && !isHidden name

end Selection

namespace Workspace

/-- Named items in the order of their names. -/
def byName {α : Type} (items : List (String × α)) : List (String × α) :=
  items.mergeSort fun a b => a.1 ≤ b.1

/-- The path of a name in a folder, given the path of the folder. -/
def join (folder name : String) : String :=
  if folder.toList.getLast? = some '/' then folder ++ name else folder ++ "/" ++ name

/-- The path of a location seen from a folder, given the path of the folder. -/
def pathBelow (path : String) (place : Location) : String := place.foldl join path

/-- Whether the entry at a path counts as a folder: it is one, or a link that leads to one. -/
def countsAsFolder (w : Workspace) (path : String) : Entry → Bool
  | .folder _ | .closed => true
  | .link _ =>
    match w.entry path with
    | .ok e => e.isDirectory
    | .error _ => false
  | .file _ => false

mutual

/-- The locations, seen from the folder at a path, of the files below it. -/
def filesBelow (w : Workspace) (s : Selection) (path : String) : Entry → List Location
  | .folder es =>
    -- a folder that cannot be listed by its path is passed over
    if pathLimit < path.utf8ByteSize then []
    else
      let files := es.filter fun e => !countsAsFolder w (join path e.1) e.2 && s.takesFile e.1
      (byName files).map (fun e => [e.1]) ++
        (byName (foldersBelow w s path es)).flatMap fun f => f.2.map (f.1 :: ·)
  | _ => []

/-- The folders that are entered, each with the files below it. -/
def foldersBelow (w : Workspace) (s : Selection) (path : String) :
    List (String × Entry) → List (String × List Location)
  | [] => []
  | (name, e) :: rest =>
    if e.isFolder && s.entersFolder name then
      (name, filesBelow w s (join path name) e) :: foldersBelow w s path rest
    else foldersBelow w s path rest

end

mutual

/-- The folders at and below a path that are passed over, in the order of the listing, each with its
location seen from the path and the fault of listing it. -/
def skippedBelow (s : Selection) (path : String) : Entry → List (Location × FileFault)
  | .folder es =>
    if pathLimit < path.utf8ByteSize then [([], .nameTooLong)]
    else (byName (skippedIn s path es)).flatMap fun f => f.2.map fun g => (f.1 :: g.1, g.2)
  | .closed => [([], if pathLimit < path.utf8ByteSize then .nameTooLong else .denied)]
  | _ => []

/-- The folders that are entered or tried, each with those at and below it that are passed over. -/
def skippedIn (s : Selection) (path : String) :
    List (String × Entry) → List (String × List (Location × FileFault))
  | [] => []
  | (name, e) :: rest =>
    if e.isDirectory && s.entersFolder name then
      (name, skippedBelow s (join path name) e) :: skippedIn s path rest
    else skippedIn s path rest

end

/-- The folder in which packages are installed. -/
def packageFolder : String := "node_modules"

mutual

/-- The sizes of the files at and below a path. A link counts with the file that it leads to; folders
of installed packages below the path are left out, and so is what cannot be listed or looked at. -/
def sizeBelow (w : Workspace) (path : String) : Entry → Nat
  | .folder es => if pathLimit < path.utf8ByteSize then 0 else sizeOfAll w path es
  | .closed => 0
  | .file content => if pathLimit < path.utf8ByteSize then 0 else content.size
  | .link _ =>
    match w.entry path with
    | .ok (.file content) => content.size
    | _ => 0

/-- The sizes of the files at and below the entries of a folder. -/
def sizeOfAll (w : Workspace) (path : String) : List (String × Entry) → Nat
  | [] => 0
  | (name, e) :: rest =>
    (if e.isFolder && name == packageFolder then 0 else sizeBelow w (join path name) e) +
      sizeOfAll w path rest

end

end Workspace

end ScriptHealth
