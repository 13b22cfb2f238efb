import ScriptHealth.Config.Layers
import ScriptHealth.Toml.Reader
import ScriptHealth.Workspace.Access

/-!
# Configuration files

Settings are read from a file in the home folder, from one in the current folder and from one that the
caller names, in rising priority; then come the environment and the caller's own settings.

## Main definitions

* `Config.parseFile`, `Config.readFile` read the settings of a file
* `Config.load` reads the configuration of a workspace
-/

namespace ScriptHealth.Config

/-- The name of the file in the home folder. -/
def homeFileName : String := ".moduly.toml"

/-- The name of the file in the current folder. -/
def projectFileName : String := "moduly.toml"

/-- The complaint about a file. -/
def badFile (path reason : String) : Fault :=
  .issue (.configuration ("Invalid config file '" ++ path ++ "': " ++ reason))

/-- The settings in the bytes of a file. -/
def parseFile (path : String) (bytes : List UInt8) : Except Fault (OrderedMap Value) :=
  match Utf8.decode? bytes with
  | none => .error .undecodable
  | some text =>
    match Toml.parse text with
    | .ok settings => .ok settings
    | .error (.malformed reason) => .error (badFile path reason)
    | .error (.tooManyDigits n) => .error (.tooManyDigits n)

/-- The settings of a file. -/
def readFile (w : Workspace) (path : String) : Except Fault (OrderedMap Value) :=
  match w.readBytes path with
  | .error .nul => .error (FileFault.nul.toFault path)
  | .error f => .error (badFile path (f.text path))
  | .ok bytes => parseFile path bytes

/-- The settings of a file that need not be there. -/
def readIfThere (w : Workspace) (path : String) : Except Fault (OrderedMap Value) := do
  if ← w.isThere path then readFile w path else return []

/-- The settings of the file that the caller names, if any. -/
def readNamed (w : Workspace) : Option String → Except Fault (OrderedMap Value)
  | none => .ok []
  | some path => do
    if ← w.isThere path then readFile w path
    else throw (.issue (.configuration ("Config file not found: " ++ path)))

/-- The layers of settings of a workspace. -/
def layers (w : Workspace) (named : Option String) (overrides : OrderedMap Value)
    (weights : Option Weights) : Except Fault Layers := do
  let fromHome ← readIfThere w (Workspace.under w.home homeFileName)
  let fromProject ← readIfThere w (Workspace.under w.current projectFileName)
  let fromNamed ← readNamed w named
  let environment ← Environment.settings w.environment.get?
  return { files := [fromHome, fromProject, fromNamed], environment, overrides, weights }

/-- The configuration of a workspace. -/
def load (w : Workspace) (named : Option String) (overrides : OrderedMap Value)
    (weights : Option Weights) : Except Fault Config := do
  ofLayers (← layers w named overrides weights)

end ScriptHealth.Config
