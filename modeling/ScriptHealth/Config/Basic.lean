import ScriptHealth.Score.Weights

/-!
# Configuration of an analysis

A configuration is read from named settings. The settings that bound something are compared with
their least value, the extensions have to start with a dot, and the verbosity has to be one of
three words; other settings are kept as they are given.

## Main definitions

* `Config.ofSettings` reads a configuration and refuses settings that are not allowed
* `Config.texts` lists the texts in a setting that names a set of files
-/

namespace ScriptHealth

/-- The configuration of an analysis. -/
structure Config where
  /-- The number of workers; null leaves it to the machine. -/
  workers : Value := .null
  maxNodes : Quantity := .int 1000
  maxEdges : Quantity := .int 2000
  enableAudit : Value := .bool true
  auditTimeout : Quantity := .int 30
  enableGit : Value := .bool true
  hotspotLimit : Quantity := .int 10
  extensions : Value := .list (
    [".js", ".jsx", ".ts", ".tsx", ".css", ".scss", ".html", ".json", ".py", ".yaml", ".yml",
     ".md"].map .str)
  excludeDirs : Value := .list (
    ["node_modules", "dist", ".git", ".moduly", ".next", "build", "coverage"].map .str)
  excludeFiles : Value := .list (["package-lock.json", "yarn.lock", "pnpm-lock.yaml"].map .str)
  /-- The directory of the report, seen from the project. -/
  outputDir : Value := .str ".moduly"
  verbosity : String := "normal"
  weights : Weights := {}

/-- A named setting: a value, or weights that were read before. -/
inductive Setting where
  | value (v : Value)
  | weights (w : Weights)

namespace Setting

/-- The literal form of a setting. -/
def literal : Setting → String
  | .value v => v.literal
  | .weights w => w.literal

/-- Whether a setting counts as true. -/
def isTruthy : Setting → Bool
  | .value v => v.isTruthy
  | .weights _ => true

/-- Whether a setting can be written out. -/
def isWritable : Setting → Bool
  | .value v => v.isWritable
  | .weights w => w.entries.all fun e => e.2.toValue.isWritable

/-- The literal form of named settings. -/
def literalMap (settings : OrderedMap Setting) : String :=
  "\x7b" ++ ", ".intercalate (settings.map fun s =>
    Value.quotedText s.1 ++ ": " ++ s.2.literal) ++ "\x7d"

end Setting

namespace Config

/-- The names of the settings, in their fixed order. -/
def names : List String :=
  ["workers", "max_nodes", "max_edges", "enable_audit", "audit_timeout_seconds", "enable_git",
   "hotspot_limit", "extensions", "exclude_dirs", "exclude_files", "output_dir", "verbosity",
   "weights"]

/-- The value of a setting, or a default. -/
def given (settings : OrderedMap Setting) (name : String) (default : Value) : Value :=
  match settings.get? name with
  | some (.value v) => v
  | _ => default

/-- A number that is at least `least`. -/
def atLeast (least : Int) (complaint : String) (v : Value) : Except Fault Quantity :=
  match Quantity.ofValue? v with
  | none => .error (.notComparable v)
  | some q => if q.lt (.int least) then .error (.badValue complaint) else .ok q

/-- The items of a value that can be run through: the items of a list, the characters of a text,
the keys of a map. -/
def items? : Value → Option (List Value)
  | .list vs => some vs
  | .str s => some (s.toList.map fun c => .str (String.singleton c))
  | .map es => some (es.map fun e => .str e.1)
  | _ => none

/-- Check that an extension is a text that starts with a dot. -/
def checkExtension (v : Value) : Except Fault Unit :=
  match v with
  | .str s =>
    if s.toList.head? = some '.' then .ok ()
    else .error (.badValue ("extension '" ++ s ++ "' must start with '.'"))
  | _ => .error .noOperation

/-- Check the extensions: at least one, and each starts with a dot. -/
def checkExtensions (v : Value) : Except Fault Unit :=
  if !v.isTruthy then .error (.badValue "extensions must not be empty")
  else
    match items? v with
    | none => .error (.notIterable v)
    | some vs => vs.forM checkExtension

/-- Whether a value can be a member of a set. -/
def isHashable : Value → Bool
  | .list _ | .map _ => false
  | _ => true

/-- The texts in a value that names a set of files. -/
def texts (v : Value) : Except Fault (List String) :=
  match items? v with
  | none => .error (.notIterable v)
  | some vs =>
    match vs.find? fun v => !isHashable v with
    | some bad => .error (.wrongKind ("unhashable type: '" ++ bad.kindName ++ "'"))
    | none => .ok (vs.filterMap fun v =>
        match v with
        | .str s => some s
        | _ => none)

/-- The bound of a list in a setting; a fraction bounds nothing. -/
def cap : Quantity → Except Fault Int
  | .switch b => .ok (if b then 1 else 0)
  | .int n => .ok n
  | .real _ =>
    .error (.wrongKind "slice indices must be integers or None or have an __index__ method")

/-- Refuse a name that is no setting. -/
def checkNames (settings : OrderedMap Setting) : Except Fault Unit :=
  match settings.find? fun s => !names.contains s.1 with
  | some s => .error (.unexpectedField "AnalysisConfig" s.1)
  | none => .ok ()

/-- Check a number of workers: null, or at least one. -/
def checkWorkers (v : Value) : Except Fault Unit :=
  match v with
  | .null => .ok ()
  | v => (atLeast 1 "workers must be at least 1" v).map fun _ => ()

/-- The verbosity: one of three words. -/
def readVerbosity (v : Value) : Except Fault String :=
  let refused := Fault.badValue "verbosity must be one of: quiet, normal, verbose"
  match v with
  | .str s => if ["quiet", "normal", "verbose"].contains s then .ok s else .error refused
  | _ => .error refused

/-- Read a configuration from named settings over the defaults. -/
def ofSettings (settings : OrderedMap Setting) : Except Fault Config := do
  checkNames settings
  let d : Config := {}
  let workers := given settings "workers" d.workers
  checkWorkers workers
  let maxNodes ← atLeast 1 "max_nodes must be at least 1"
    (given settings "max_nodes" d.maxNodes.toValue)
  let maxEdges ← atLeast 1 "max_edges must be at least 1"
    (given settings "max_edges" d.maxEdges.toValue)
  let auditTimeout ← atLeast 1 "audit_timeout_seconds must be at least 1"
    (given settings "audit_timeout_seconds" d.auditTimeout.toValue)
  let hotspotLimit ← atLeast 0 "hotspot_limit must be non-negative"
    (given settings "hotspot_limit" d.hotspotLimit.toValue)
  let extensions := given settings "extensions" d.extensions
  checkExtensions extensions
  let verbosity ← readVerbosity (given settings "verbosity" (.str d.verbosity))
  return {
    workers, maxNodes, maxEdges, auditTimeout, hotspotLimit, extensions, verbosity
    enableAudit := given settings "enable_audit" d.enableAudit
    enableGit := given settings "enable_git" d.enableGit
    excludeDirs := given settings "exclude_dirs" d.excludeDirs
    excludeFiles := given settings "exclude_files" d.excludeFiles
    outputDir := given settings "output_dir" d.outputDir
    weights := match settings.get? "weights" with
      | some (.weights w) => w
      | _ => d.weights }

end Config

end ScriptHealth
