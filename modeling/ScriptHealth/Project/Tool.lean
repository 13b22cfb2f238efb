import ScriptHealth.Analysis.File
import ScriptHealth.Hotspot
import ScriptHealth.Json.Reader
import ScriptHealth.Logged
import ScriptHealth.Package.Manifest
import ScriptHealth.Script.Parser
import ScriptHealth.Security.Audit
import ScriptHealth.Text.Markup
import ScriptHealth.Workspace.Access

/-!
# Tools that are asked about a project

The dependency audit and the history of a project come from other programs. A run of a program either
finishes with its output or fails. No failure of a program stops an analysis: it is logged, and
nothing is learned. Trees of scripts and the text that a terminal shows come from tools as well.

## Main definitions

* `Tools` is everything that is asked from outside
* `Project.audit` asks for known vulnerabilities
* `Project.history` asks for the files that were changed most often
-/

namespace ScriptHealth

/-- Why a program did not finish. -/
inductive RunFault where
  | notFound
  | denied
  | failed
  | timedOut
  deriving DecidableEq, Repr

/-- The outcome of running a program. -/
inductive RunResult where
  | finished (exitCode : Int) (output errors : String)
  | stopped (cause : RunFault)
  deriving DecidableEq, Repr

/-- A program that was run, with its arguments and the seconds it was given. -/
structure Call where
  command : List String
  timeout : Value

/-- What is asked from outside: the outcomes of the programs that are asked about a project, a parser
of scripts and a renderer of styled texts. Analyses and commands take all of them as they are given;
the parser and the renderer of the library are what stands in when nothing else is given. -/
structure Tools where
  audit : RunResult := .stopped .notFound
  repositoryCheck : RunResult := .finished 128 "" ""
  log : RunResult := .finished 0 "" ""
  parse : ScriptParser := Script.parse
  render : Markup.Renderer := Markup.plain

namespace Project

/-- A number as an argument of a log record; only integers count as numbers. -/
def logNumber : Value → Log.Argument
  | .int n => .number n
  | .bool b => .number (if b then 1 else 0)
  | v => .text v.text

/-! ### The dependency audit -/

/-- The logger of the audit. -/
def auditLogger : String := "moduly.security.audit"

/-- The arguments of the audit. -/
def auditCall (command : String) (timeout : Value) : Call := ⟨[command, "audit", "--json"], timeout⟩

/-- Whether there is something to audit: a manifest and its lock file. -/
def isAuditable (w : Workspace) (root : String) : Except Fault Bool := do
  if !(← w.isFile (Workspace.under root Manifest.fileName)) then return false
  w.isFile (Workspace.under root Manifest.lockFileName)

/-- What is learned from the outcome of the audit. -/
def auditFindings (command : String) (timeout : Value) (r : RunResult) : Logged (List Finding) := do
  match r with
  | .stopped .notFound =>
    Logged.note .warning auditLogger "%s not found; skipping dependency audit" [.text command]
    return []
  | .stopped .timedOut =>
    Logged.note .warning auditLogger "Dependency audit timed out after %ds" [logNumber timeout]
    return []
  | .stopped _ =>
    Logged.note .warning auditLogger "Dependency audit failed: %s" [.text ""]
    return []
  | .finished exitCode output _ =>
    if Text.trim output.toList = [] then
      Logged.note .warning auditLogger "Dependency audit produced no output (exit %d)"
        [.number exitCode]
      return []
    match Json.parse output.toList with
    | .error .malformed =>
      Logged.note .warning auditLogger "Cannot parse dependency audit output: %s" [.text ""]
      return []
    | .error (.tooManyDigits n) => throw (.tooManyDigits n)
    | .ok payload =>
      let findings := Audit.findings payload
      Logged.note .debug auditLogger "Dependency audit reported %d findings"
        [.number findings.length]
      return findings

/-- Ask for the known vulnerabilities of a project, and say what was run. -/
def audit (w : Workspace) (root command : String) (timeout : Value) (r : RunResult) :
    Logged (List Finding × List Call) := do
  if !(← isAuditable w root) then
    Logged.note .info auditLogger "No lockfile found; skipping dependency audit" []
    return ([], [])
  return (← auditFindings command timeout r, [auditCall command timeout])

/-! ### The history -/

/-- The logger of the history. -/
def historyLogger : String := "moduly.temporal.git_extractor"

/-- The question whether a folder belongs to a repository; it is given five seconds. -/
def repositoryCall (root : String) : Call := ⟨["git", "-C", root, "rev-parse", "--git-dir"], .int 5⟩

/-- The question for the files of all commits. -/
def logCall (root : String) (timeout : Value) : Call :=
  ⟨["git", "-C", root, "log", "--pretty=format:", "--name-only"], timeout⟩

/-- Whether the outcome of the first question says that there is a repository. -/
def isRepository : RunResult → Bool
  | .finished exitCode _ _ => exitCode == 0
  | .stopped _ => false

/-- The files of all commits, from the outcome of the second question. -/
def commitLog (r : RunResult) : Logged (Option String) := do
  match r with
  | .stopped _ =>
    Logged.note .warning historyLogger "git log error: %s" [.text ""]
    return none
  | .finished exitCode output errors =>
    if exitCode ≠ 0 then
      Logged.note .info historyLogger "git log failed: %s" [.text errors]
      return none
    return some output

/-- Ask for the files of a project that were changed most often, and say what was run. The limit is
looked at only when there is a history. -/
def history (root : String) (limit : Except Fault Int) (timeout : Value) (t : Tools) :
    Logged (List Hotspot × List Call) := do
  if !isRepository t.repositoryCheck then
    Logged.note .info historyLogger "Not a git repository; skipping hotspot analysis" []
    return ([], [repositoryCall root])
  let calls := [repositoryCall root, logCall root timeout]
  match ← commitLog t.log with
  | none => return ([], calls)
  | some log => return (Hotspot.rank (← limit) log, calls)

end Project

end ScriptHealth
