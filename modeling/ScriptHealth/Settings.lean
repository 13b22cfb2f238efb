import ScriptHealth.Json.Reader
import ScriptHealth.Json.Writer
import ScriptHealth.Logged
import ScriptHealth.Project.Manifest
import ScriptHealth.Workspace.Access

/-!
# User settings

The settings of a user are kept in a file between runs. A missing file means the defaults, and so does
one that cannot be understood.

## Main definitions

* `UserSettings.path` is where the file is
* `UserSettings.load`, `UserSettings.save` read and write it
-/

namespace ScriptHealth

/-- The settings of a user. -/
structure UserSettings where
  /-- Whether commits by assistants are looked for. -/
  aiEnabled : Bool := false
  deriving DecidableEq, Repr

namespace UserSettings

/-- The variable that moves the folder of the settings. -/
def homeVariable : String := "MODULY_HOME"

/-- The name of the file. -/
def fileName : String := "settings.json"

/-- The folder of the settings; an empty variable does not move it. -/
def folder (w : Workspace) : String :=
  match w.environment.get? homeVariable with
  | some dir =>
    if dir = "" then Workspace.under w.home ".moduly" else String.ofList (Path.plain dir.toList)
  | none => Workspace.under w.home ".moduly"

/-- The file of the settings. -/
def path (w : Workspace) : String := Workspace.under (folder w) fileName

/-- The logger of the settings. -/
def logger : String := "moduly.settings"

/-- The name of the switch. -/
def aiField : String := "ai_enabled"

/-- The settings that a decoded file gives. -/
def ofValue (path : String) (v : Value) : Logged UserSettings := do
  match v with
  | .map entries =>
    match OrderedMap.get? aiField entries with
    | none => return {}
    | some (.bool b) => return { aiEnabled := b }
    | some _ =>
      Logged.note .warning logger "Ignoring non-boolean ai_enabled in %s" [.text path]
      return {}
  | _ =>
    Logged.note .warning logger "Ignoring malformed settings file %s" [.text path]
    return {}

/-- Read the settings. -/
def load (w : Workspace) : Logged UserSettings := do
  let path := path w
  let unreadable : Logged UserSettings := do
    Logged.note .warning logger "Ignoring unreadable settings file %s: %s" [.text path, .text ""]
    return {}
  match ← w.look path with
  | none => return {}
  | some (.file content) =>
    match Project.strictText? content.data.toList with
    | none => throw .undecodable
    | some text =>
      match Json.parse text with
      | .ok v => ofValue path v
      | .error .malformed => unreadable
      | .error (.tooManyDigits n) => throw (.tooManyDigits n)
  | some _ => unreadable

/-- The text of the file. -/
def text (s : UserSettings) : String := Json.render (.map [(aiField, .bool s.aiEnabled)]) ++ "\n"

/-- The complaint about settings that cannot be written. -/
def unwritable (path : String) (f : Fault) : Fault :=
  match f with
  | .system reason =>
    .issue (.configuration ("Cannot write settings to " ++ path ++ ": " ++ reason))
  | f => f

/-- Write the settings and say where they are. The workspace holds what was written before a
fault. -/
def save (w : Workspace) (s : UserSettings) : Workspace × Except Fault String :=
  let path := path w
  let parent := Workspace.parentOf path
  match w.makeFolders parent (parent.length + 1) with
  | (w, some f) => (w, .error (unwritable path f))
  | (w, none) =>
    match w.writeText path s.text with
    | .error f => (w, .error (unwritable path (f.toFault path)))
    | .ok w => (w, .ok path)

/-- The record of writing the settings. -/
def savedRecord (path : String) : Log.Record :=
  { level := .debug, logger, template := "Saved settings to %s", arguments := [.text path] }

end UserSettings

end ScriptHealth
