import ScriptHealth.Config.Environment

/-!
# Layers of configuration

Settings come from files, from the environment and from the caller, and later layers win. The
switches for verbose and quiet runs turn into the verbosity.

## Main definitions

* `Layers.merge` combines the layers into one map of settings
* `Config.ofLayers` reads the configuration of combined layers
-/

namespace ScriptHealth

/-- Where settings come from: files in rising priority, the environment, the caller's values, and
weights that the caller passes ready-made. -/
structure Layers where
  files : List (OrderedMap Value) := []
  environment : OrderedMap Value := []
  overrides : OrderedMap Value := []
  weights : Option Weights := none

namespace Layers

/-- Turn a switch into the verbosity when it is on, and drop the switch. -/
def applySwitch (switch verbosity : String) (overrides : OrderedMap Setting) :
    OrderedMap Setting :=
  match overrides.get? switch with
  | none => overrides
  | some s =>
    let rest := overrides.erase switch
    if s.isTruthy then rest.insert "verbosity" (.value (.str verbosity)) else rest

/-- Whether a setting is null, which means that the caller leaves it open. -/
def isOpen : Setting → Bool
  | .value .null => true
  | _ => false

/-- The settings of the caller. -/
def callerSettings (l : Layers) : OrderedMap Setting :=
  let values := l.overrides.map fun e => (e.1, Setting.value e.2)
  let values := match l.weights with
    | none => values
    | some w => OrderedMap.insert "weights" (.weights w) values
  let values := applySwitch "verbose" "verbose" values
  let values := applySwitch "quiet" "quiet" values
  values.filter fun e => !isOpen e.2

/-- All settings; later layers win. -/
def merge (l : Layers) : OrderedMap Setting :=
  let plain (m : OrderedMap Value) : OrderedMap Setting := m.map fun e => (e.1, .value e.2)
  let fromFiles := l.files.foldl (fun m f => OrderedMap.union m (plain f)) []
  (fromFiles.union (plain l.environment)).union l.callerSettings

/-- The complaint about settings that are not allowed. It shows the settings, so it fails itself when
they cannot be written out. -/
def refusal (key : String) (writable : Bool) (shown reason : String) : Fault :=
  if writable then .issue (.invalidConfig (.str key) shown (.str reason)) else .unwritableInteger

/-- Replace a table of weights by the weights that it gives; weights of another kind are
dropped. -/
def readWeights (settings : OrderedMap Setting) : Except Fault (OrderedMap Setting) :=
  let rest := settings.erase "weights"
  match settings.get? "weights" with
  | some (.value (.map entries)) =>
    match Weights.ofEntries entries with
    | .ok w => .ok (rest.insert "weights" (.weights w))
    | .error (.wrongKind reason) =>
      .error (.issue (.configuration ("Invalid [weights] config: " ++ reason)))
    | .error (.badValue reason) =>
      let given := Value.map entries
      .error (refusal "weights" given.isWritable given.literal reason)
    | .error e => .error e
  | some (.weights w) => .ok (rest.insert "weights" (.weights w))
  | _ => .ok rest

end Layers

/-- Read the configuration of combined layers. -/
def Config.ofLayers (l : Layers) : Except Fault Config := do
  let settings ← Layers.readWeights l.merge
  match Config.ofSettings settings with
  | .ok c => return c
  | .error (.wrongKind reason) =>
    throw (.issue (.configuration ("Invalid configuration: " ++ reason)))
  | .error (.badValue reason) =>
    let writable := settings.all fun s => s.2.isWritable
    throw (Layers.refusal "config" writable (Setting.literalMap settings) reason)
  | .error e => throw e

end ScriptHealth
