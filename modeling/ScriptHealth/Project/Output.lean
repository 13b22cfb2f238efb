import ScriptHealth.Report.Basic
import ScriptHealth.Workspace.Access
import ScriptHealth.Project.Manifest

/-!
# Writing a report

A report is written below the project. If the project has a list of ignored files that does not name
the folder of the report, the folder is added to it.

## Main definitions

* `Project.ensureIgnored` adds an entry to the list of ignored files
* `Project.writeReport` writes a report
-/

namespace ScriptHealth.Project

/-- The name of the file of a report. -/
def reportFileName : String := "report.json"

/-- The name of the list of ignored files. -/
def ignoreFileName : String := ".gitignore"

/-- An entry without slashes at its end. -/
def bareEntry (entry : List Char) : List Char := Text.dropTrailing '/' entry

/-- The entries of a list of ignored files. -/
def ignoreEntries (content : List Char) : List (List Char) :=
  (Text.paragraphs content).map fun line => bareEntry (Text.trim line)

/-- Whether a list of ignored files has an entry, with or without a slash before it. -/
def isIgnored (content entry : List Char) : Bool :=
  let entries := ignoreEntries content
  entries.contains (bareEntry entry) || entries.contains ('/' :: bareEntry entry)

/-- What is added to a list of ignored files for an entry. -/
def ignoreAddition (content entry : List Char) : List Char :=
  let fresh := content = [] ∨ content.getLast? = some '\n'
  (if fresh then [] else ['\n']) ++ entry ++ ['\n']

/-- Add an entry to the list of ignored files of a project, if there is one that lacks it. -/
def ensureIgnored (w : Workspace) (root entry : String) : Except Fault (Bool × Workspace) := do
  let path := Workspace.under root ignoreFileName
  match ← w.look path with
  | some (.file content) =>
    match strictText? content.data.toList with
    | none => throw .undecodable
    | some text =>
      if isIgnored text entry.toList then return (false, w)
      let addition := String.ofList (ignoreAddition text entry.toList)
      match w.write path (content ++ addition.toUTF8) with
      | .ok w => return (true, w)
      | .error _ => return (false, w)
  | _ => return (false, w)

/-- The text of the file of a report. -/
def reportText (r : Report) : String := r.toStored.text ++ "\n"

/-- The path of a report in an output folder below a root. -/
def reportPath (root outputDir : String) : String :=
  Workspace.under (Workspace.under root outputDir) reportFileName

/-- The complaint about a report that cannot be written. -/
def unwritable (path : String) (f : Fault) : Fault :=
  match f with
  | .system reason =>
    .issue (.configuration ("Cannot write report to " ++ path ++ ": " ++ reason))
  | f => f

/-- Write a report and say where it is. The workspace holds what was written before a fault. -/
def writeReport (w : Workspace) (root : String) (r : Report) (outputDir : Value) :
    Workspace × Except Fault String :=
  match outputDir with
  | .str dir =>
    let path := reportPath root dir
    let folder := Workspace.under root dir
    match w.makeFolders folder (folder.length + 1) with
    | (w, some f) => (w, .error (unwritable path f))
    | (w, none) =>
      match w.writeText path (reportText r) with
      | .error f => (w, .error (unwritable path (f.toFault path)))
      | .ok w =>
        match ensureIgnored w root dir with
        | .ok (_, w) => (w, .ok path)
        | .error f => (w, .error f)
  | v => (w, .error (.wrongKind ("an output folder is not a '" ++ v.kindName ++ "'")))

end ScriptHealth.Project
