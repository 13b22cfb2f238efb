import ScriptHealth.Json.Reader
import ScriptHealth.Logged
import ScriptHealth.Number.Plain
import ScriptHealth.Package.Manifest
import ScriptHealth.Workspace.Walk

/-!
# The manifest of a project

The manifest is read from its file at the root of a project. A file that is no JSON text counts as no
manifest. The packages that it names are measured in the folder of installed packages.

## Main definitions

* `Project.loadManifest` reads the manifest
* `Project.installedSize` adds up the installed packages that the manifest names
-/

namespace ScriptHealth.Project

open scoped Number.Plain

/-- The text of bytes that are UTF-8; all line ends become line feeds. -/
def strictText? (bytes : List UInt8) : Option (List Char) := (Utf8.decode? bytes).map Text.unifyBreaks

/-- The logger of the manifest. -/
def manifestLogger : String := "moduly.packages.manifest"

/-- Read the manifest below a root. -/
def loadManifest (w : Workspace) (root : String) : Logged (Option Manifest) := do
  let path := Workspace.under root Manifest.fileName
  let unreadable : Logged (Option Manifest) := do
    Logged.note .warning manifestLogger "Cannot read %s: %s" [.text path, .text ""]
    return none
  match ← w.look path with
  | some (.file content) =>
    match strictText? content.data.toList with
    | none => unreadable
    | some text =>
      match Json.parse text with
      | .ok v => return some (Manifest.ofValue v)
      | .error .malformed => unreadable
      | .error (.tooManyDigits n) => throw (.tooManyDigits n)
  | _ =>
    Logged.note .info manifestLogger "No %s found; skipping package classification"
      [.text Manifest.fileName]
    return none

/-- The size of what is installed at a path, if it is a folder that can be listed. -/
def folderSize (w : Workspace) (path : String) : Except Fault Nat := do
  match ← w.look path with
  | some (.folder es) => return Workspace.sizeOfAll w path es
  | _ => return 0

/-- The size of the installed packages that the manifest of a project names. -/
def installedSize (w : Workspace) (root : String) (manifest : Option Manifest) :
    Except Fault Nat := do
  match manifest with
  | none => return 0
  | some m =>
    let packages := Workspace.under root Workspace.packageFolder
    if !(← w.isFolder packages) then return 0
    let sizes ← m.dependencies.keys.mapM fun name => folderSize w (Workspace.under packages name)
    return sizes.sum

end ScriptHealth.Project
