import ScriptHealth.Command.Request
import ScriptHealth.Config.Files
import ScriptHealth.Project.Analysis
import ScriptHealth.Project.Output
import ScriptHealth.Report.Summary
import ScriptHealth.Settings
import ScriptHealth.Text.Markup

/-!
# Running a command line

A request is run on a workspace. Its outcome is an exit code and a text; an issue is shown as an error
with exit code 1, a usage error has exit code 2, and other faults end the run. Styled texts go through
the renderer that is given; a text that it refuses ends the run.

## Main definitions

* `Command.runAnalysis`, `Command.runAi` run the two commands
* `Command.run` runs a command line
-/

namespace ScriptHealth

/-- The outcome of a command line. -/
structure Outcome where
  exitCode : Nat := 0
  output : String := ""
  /-- A fault that ended the run. -/
  escaped : Option Fault := none

namespace Command

/-- The version of the program. -/
def version : String := "0.1.0"

section Shown

variable (render : Markup.Renderer)

/-- A line of styled text as output. -/
def say (exitCode : Nat) (markup : String) : Outcome :=
  match render markup with
  | .ok text => { exitCode, output := text ++ "\n" }
  | .error f => { exitCode := 1, escaped := some f }

/-- The outcome of a fault: an issue is shown, anything else ends the run. -/
def failure (f : Fault) : Outcome :=
  match f with
  | .issue i => say render 1 ("[red]Error:[/red] " ++ i.text)
  | f => { exitCode := 1, escaped := some f }

/-- The text that is shown of one thing in a summary. -/
def itemText : Summary.Item → Except Fault String
  | .line markup => (render markup).map (· ++ "\n")
  | .empty => .ok "\n"
  | .panel markup title => do
    return (← render title) ++ "\n" ++ (← render markup) ++ "\n"
  | .table title columns rows => do
    let title ← render title
    let header ← columns.mapM fun c => render c.header
    let rows ← rows.mapM fun row => row.mapM render
    let lines := (header :: rows).map fun cells => "  ".intercalate cells
    return "\n".intercalate (title :: lines) ++ "\n"

/-- The text that is shown of the summary of a report. -/
def summaryText (r : Report) : Except Fault String := do
  let items ← Summary.of r.toStored
  return String.join (← items.mapM (itemText render))

/-- The output of a finished analysis. -/
def present (asJson : Bool) (r : Report) (savedAt : Option String) : Except Fault String := do
  if asJson then return r.toStored.text ++ "\n"
  let summary ← summaryText render r
  match savedAt with
  | none => return summary
  | some path =>
    return summary ++ (← render ("[dim]Report saved to " ++ path ++ "[/dim]")) ++ "\n"

end Shown

/-! ### The analysis -/

/-- The settings that an analysis on the command line asks for. -/
def overridesOf (r : AnalysisRequest) : OrderedMap Value :=
  (match r.workers with
    | some n => [("workers", .int n)]
    | none => []) ++
  (if r.skipsAudit then [("enable_audit", .bool false)] else []) ++
  (if r.skipsHistory then [("enable_git", .bool false)] else []) ++
  (if r.verbose then [("verbose", .bool true)] else []) ++
  (if r.quiet then [("quiet", .bool true)] else [])

/-- Write the report, if that is asked for. -/
def saveReport (w : Workspace) (q : AnalysisRequest) (root : String) (r : Report)
    (config : Config) : Workspace × Except Fault (Option String) :=
  if q.writesReport then
    let (w, saved) := Project.writeReport w root r config.outputDir
    (w, saved.map some)
  else (w, .ok none)

/-- Analyse a project. -/
def runAnalysis (w : Workspace) (tools : Tools) (timestamp : String) (q : AnalysisRequest) :
    Workspace × Outcome :=
  let root := q.path.getD w.current
  let analysis : Except Fault (Config × Report) := do
    let config ← Config.load w q.configFile (overridesOf q) none
    let (r, _) ← (Project.analyze w tools timestamp root config).result
    return (config, r)
  match analysis with
  | .error f => (w, failure tools.render f)
  | .ok (config, r) =>
    let (w, saved) := saveReport w q root r config
    match saved.bind (present tools.render q.asJson r) with
    | .ok text => (w, { output := text })
    | .error f => (w, failure tools.render f)

/-! ### The assistant switch -/

/-- The states that the switch is asked for. -/
def aiStates : List String := ["on", "off", "status"]

/-- Show the switch or turn it. -/
def runAi (render : Markup.Renderer) (w : Workspace) (state : String) : Workspace × Outcome :=
  let state := String.ofList (Text.lower state.toList)
  if !aiStates.contains state then
    (w, say render 1 ("[red]Error:[/red] Invalid state " ++ Value.quotedText state ++ ". Use one of: " ++
      ", ".intercalate aiStates))
  else
    match (UserSettings.load w).result with
    | .error f => (w, failure render f)
    | .ok (settings, _) =>
      if state = "status" then
        (w, say render 0 ("AI mode: " ++
          if settings.aiEnabled then "[green]on[/green]" else "[yellow]off[/yellow]"))
      else
        let settings := { settings with aiEnabled := state == "on" }
        match UserSettings.save w settings with
        | (w, .error f) => (w, failure render f)
        | (w, .ok path) => (w, say render 0 ("AI mode " ++
            (if settings.aiEnabled then "[green]enabled[/green]" else "[yellow]disabled[/yellow]") ++
            " [dim](" ++ path ++ ")[/dim]"))

/-! ### Command lines -/

/-- Run a command line. -/
def run (w : Workspace) (tools : Tools) (timestamp : String) (arguments : List String) :
    Workspace × Outcome :=
  match Request.ofArguments w arguments with
  | none => (w, { exitCode := 2 })
  | some .help => (w, {})
  | some .version =>
    (w, say tools.render 0 ("[bold cyan]Moduly[/bold cyan] version [green]" ++ version ++ "[/green]"))
  | some (.analyze q) => runAnalysis w tools timestamp q
  | some (.ai state) => runAi tools.render w state

end Command

end ScriptHealth
