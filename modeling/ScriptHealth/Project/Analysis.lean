import ScriptHealth.Project.Files
import ScriptHealth.Project.Manifest
import ScriptHealth.Project.Tool
import ScriptHealth.Report.Basic

/-!
# Analysis of a project

The files below the root of a project are listed, loaded and analysed; the audit and the history are
asked for when the configuration says so; then the report is assembled.
-/

namespace ScriptHealth.Project

/-- The files that a configuration selects. -/
def selectionOf (c : Config) : Except Fault Selection := do
  return {
    extensions := ← Config.texts c.extensions
    excludeFolders := ← Config.texts c.excludeDirs
    excludeFiles := ← Config.texts c.excludeFiles }

/-- The name of a project: that of its root. -/
def nameOf (root : String) : String := String.ofList (Path.name root.toList)

/-- The program that audits dependencies. -/
def auditProgram : String := "npm"

/-- The seconds that the history is given. -/
def historyTimeout : Value := .int 30

/-- The known vulnerabilities of a project, if a configuration asks for them. -/
def auditIfAsked (w : Workspace) (root : String) (config : Config) (tools : Tools) :
    Logged (List Finding) := do
  if config.enableAudit.isTruthy then
    let (findings, _) ← audit w root auditProgram config.auditTimeout.toValue tools.audit
    return findings
  else return []

/-- The files of a project that were changed most often, if a configuration asks for them. -/
def historyIfAsked (root : String) (config : Config) (tools : Tools) : Logged (List Hotspot) := do
  if config.enableGit.isTruthy then
    let (hotspots, _) ← history root (Config.cap config.hotspotLimit) historyTimeout tools
    return hotspots
  else return []

/-- Analyse the files that are listed below a root. -/
def analyzeFiles (w : Workspace) (tools : Tools) (timestamp root : String) (config : Config)
    (paths : List String) : Logged Report := do
  let sources ← loadSources w root paths config.workers
  let manifest ← loadManifest w root
  let analysis ← SourceAnalysis.of tools.parse config sources manifest
  let findings ← auditIfAsked w root config tools
  let hotspots ← historyIfAsked root config tools
  let installed ← installedSize w root manifest
  let performance ← Performance.of analysis.stats.files manifest installed
  Report.assemble (nameOf root) timestamp analysis hotspots findings performance config.weights

/-- Analyse the project at a path. -/
def analyze (w : Workspace) (tools : Tools) (timestamp path : String) (config : Config) :
    Logged Report := do
  let root ← w.realPath path
  let paths ← listFiles w root (selectionOf config)
  analyzeFiles w tools timestamp root config paths

end ScriptHealth.Project
