import ScriptHealth.Logged
import ScriptHealth.Number.Quantity
import ScriptHealth.Source.File
import ScriptHealth.Workspace.Walk

/-!
# Files of a project

The files of a project are listed below its root and loaded. A root that cannot be listed is an
issue, and a folder below it that cannot be listed is passed over. Bytes that are not UTF-8 are
replaced, and all line ends become line feeds. A file that cannot be read is kept without a text.

## Main definitions

* `Project.listFiles` lists the files of a project
* `Project.readSource`, `Project.loadSources` read them
-/

namespace ScriptHealth.Project

/-- The logger of the listing. -/
def listingLogger : String := "moduly.scanning.enumerator"

/-- The complaint about a root that cannot be listed. -/
def unlistable (root : String) (f : FileFault) : Fault :=
  .issue (.fileAccess root (.str ("Cannot list project root: " ++ f.text root)))

/-- Record the folders below a root that are passed over. -/
def noteSkipped (root : String) (skipped : List (Location × FileFault)) : Logged Unit :=
  skipped.forM fun (place, f) =>
    let path := Workspace.pathBelow root place
    Logged.note .debug listingLogger "Skipping unreadable directory %s: %s"
      [.text path, .text (f.text path)]

/-- List the files below a root, as paths seen from it. -/
def listFiles (w : Workspace) (root : String) (selection : Except Fault Selection) :
    Logged (List String) := do
  match ← w.look root with
  | none => throw (.issue (.invalidPath root (.str "Path does not exist")))
  | some e =>
    if !e.isDirectory then
      throw (.issue (.invalidPath root (.str "Path is not a directory")))
    match w.list root with
    | .error f => throw (unlistable root f)
    | .ok es =>
      let s ← selection
      let files := Workspace.filesBelow w s root (.folder es)
      noteSkipped root (Workspace.skippedBelow s root (.folder es))
      Logged.note .debug listingLogger "Enumerated %d files under %s"
        [.number files.length, .text root]
      return files.map "/".intercalate

/-- The text of bytes: what is not UTF-8 is replaced, and all line ends become line feeds. -/
def sourceText (bytes : List UInt8) : String :=
  String.ofList (Text.unifyBreaks (Utf8.decodeLossy bytes))

/-- The text of a file. -/
def readSource (w : Workspace) (root path : String) : Except Fault String :=
  let full := Workspace.under root path
  match w.readBytes full with
  | .ok bytes => .ok (sourceText bytes)
  | .error .nul => .error (FileFault.nul.toFault full)
  | .error f => .error (.issue (.fileAccess full (.str ("OS error: " ++ f.text full))))

/-- Load a file; one that cannot be read has no text. -/
def loadSource (w : Workspace) (root path : String) : Except Fault SourceFile :=
  let full := Workspace.under root path
  let shown := String.ofList (Path.slashes path.toList)
  match w.read full with
  | .ok content => .ok
      { path := shown, size := content.size, text := some (sourceText content.data.toList) }
  | .error .nul => .error (FileFault.nul.toFault full)
  | .error _ => .ok { path := shown }

/-- Refuse a number of workers that is not positive. -/
def checkWorkers (workers : Value) : Except Fault Unit :=
  match Quantity.ofValue? workers with
  | some q =>
    if q.le (.int 0) then .error (.badValue "max_workers must be greater than 0") else .ok ()
  | none => .ok ()

/-- Load files in the order of their paths. -/
def loadSources (w : Workspace) (root : String) (paths : List String) (workers : Value) :
    Except Fault (List SourceFile) := do
  checkWorkers workers
  paths.mapM (loadSource w root)

end ScriptHealth.Project
