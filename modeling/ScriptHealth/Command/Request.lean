import ScriptHealth.Command.Options
import ScriptHealth.Number.Numeral
import ScriptHealth.Workspace.Access

/-!
# Requests on the command line

A command line asks for the version, for help, for an analysis or for the assistant switch. Anything
else is a usage error, and so are values that are out of range and paths that lead to the wrong kind
of entry.

## Main definitions

* `Request.ofArguments` reads a command line
-/

namespace ScriptHealth

/-- What an analysis on the command line is asked to do. -/
structure AnalysisRequest where
  /-- The root of the project; without one it is the current folder. -/
  path : Option String := none
  writesReport : Bool := true
  asJson : Bool := false
  skipsAudit : Bool := false
  skipsHistory : Bool := false
  workers : Option Int := none
  configFile : Option String := none
  verbose : Bool := false
  quiet : Bool := false

/-- What a command line asks for. -/
inductive Request where
  | version
  | help
  | analyze (r : AnalysisRequest)
  | ai (state : String)

namespace Request

/-- The option that asks for help. -/
def helpRule : OptionRule := { key := "help", long := ["--help"] }

/-- The options before the name of a command. -/
def topRules : List OptionRule := [{ key := "version", long := ["--version"] }, helpRule]

/-- The options of an analysis. -/
def analysisRules : List OptionRule :=
  [{ key := "path", short := some 'C', long := ["--path"], takesValue := true },
   { key := "report", long := ["--report"] },
   { key := "no-report", long := ["--no-report"] },
   { key := "json", long := ["--json"] },
   { key := "no-audit", long := ["--no-audit"] },
   { key := "no-git", long := ["--no-git"] },
   { key := "workers", short := some 'w', long := ["--workers"], takesValue := true },
   { key := "config", short := some 'c', long := ["--config"], takesValue := true },
   { key := "verbose", short := some 'v', long := ["--verbose"] },
   { key := "quiet", short := some 'q', long := ["--quiet"] },
   helpRule]

/-- The greatest number of workers on the command line. -/
def workerLimit : Int := 32

/-- A number of workers, if it is in range. -/
def readWorkers? (s : String) : Option Int :=
  match Number.readInt s.toList with
  | .ok n => if 1 ≤ n ∧ n ≤ workerLimit then some n else none
  | .error _ => none

/-- A path without segments that say nothing. -/
def plainPath (path : String) : String := String.ofList (Path.plain path.toList)

/-- The root of a project may be missing, but it may be neither a file nor a closed folder. -/
def readRoot? (w : Workspace) (path : String) : Option String :=
  match w.entry path with
  | .ok (.file _) | .ok .closed => none
  | _ => some (plainPath path)

/-- A configuration file has to be there. -/
def readConfigFile? (w : Workspace) (path : String) : Option String :=
  match w.entry path with
  | .ok (.file _) => some (plainPath path)
  | _ => none

/-- Read an optional value. -/
def readOptional {α : Type} (read : String → Option α) : Option String → Option (Option α)
  | none => some none
  | some s => (read s).map some

/-- Whether the last of two opposite options is the first one; without both it is `default`. -/
def lastOf (o : Options) (yes no : String) (default : Bool) : Bool :=
  match o.given.reverse.find? fun g => g.1 == yes || g.1 == no with
  | some g => g.1 == yes
  | none => default

/-- The request for an analysis. -/
def readAnalysis (w : Workspace) (o : Options) : Option AnalysisRequest := do
  let path ← readOptional (readRoot? w) (o.value? "path")
  let workers ← readOptional readWorkers? (o.value? "workers")
  let configFile ← readOptional (readConfigFile? w) (o.value? "config")
  if o.words ≠ [] then none
  else return {
    path, workers, configFile
    writesReport := lastOf o "report" "no-report" true
    asJson := o.has "json"
    skipsAudit := o.has "no-audit"
    skipsHistory := o.has "no-git"
    verbose := o.has "verbose"
    quiet := o.has "quiet" }

/-- The request of a named command. -/
def ofCommand (w : Workspace) (name : String) (rest : List String) : Option Request := do
  if name = "analyze" then
    let o ← Options.read analysisRules false (rest.length + 1) rest
    if o.has "help" then return .help
    return .analyze (← readAnalysis w o)
  else if name = "ai" then
    let o ← Options.read [helpRule] false (rest.length + 1) rest
    if o.has "help" then return .help
    match o.words with
    | [state] => return .ai state
    | _ => none
  else none

/-- What a command line asks for; nothing stands for a usage error. -/
def ofArguments (w : Workspace) (arguments : List String) : Option Request := do
  let o ← Options.read topRules true (arguments.length + 1) arguments
  match o.given with
  | (key, _) :: _ => return if key = "version" then .version else .help
  | [] =>
    match o.words with
    | name :: rest => ofCommand w name rest
    | [] => none

end Request

end ScriptHealth
