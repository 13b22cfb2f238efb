import ScriptHealth.Analysis.Sources
import ScriptHealth.Performance
import ScriptHealth.Report.Stored
import ScriptHealth.Score.Basic

/-!
# Reports

A report holds everything that was learned about a project and its score. The findings of the
dependency audit stand before those in the texts, and all of them are brought into the order of
their severity.

## Main definitions

* `Report.assemble` merges what was learned and scores it
* `Report.toStored` is the report in the form in which it is written out
-/

namespace ScriptHealth

/-- Everything that was learned about a project. -/
structure Report where
  projectName : String
  timestamp : String
  stats : ProjectStats
  hotspots : List Hotspot
  graph : DependencyGraph
  packages : PackageUsage
  security : List Finding
  performance : Performance
  score : Int

namespace Report

/-- The findings of a report, worst first; findings of the audit come first among equals. -/
def securityOf (audit : List Finding) (analysis : SourceAnalysis) : List Finding :=
  Finding.sort (audit ++ analysis.findings)

/-- What the score of a project is computed from. -/
def signalsOf (analysis : SourceAnalysis) (hotspots : List Hotspot) (audit : List Finding) :
    Signals where
  files := analysis.stats.totalFiles
  lines := analysis.stats.totalLines
  codeLines := analysis.stats.codeLines
  commentLines := analysis.stats.commentLines
  hotspots := hotspots
  nodes := analysis.graph.nodes.length
  edges := analysis.graph.edges.length
  unused := analysis.packages.unused.length
  findings := securityOf audit analysis

/-- Merge what was learned about a project and score it. -/
def assemble (projectName timestamp : String) (analysis : SourceAnalysis) (hotspots : List Hotspot)
    (audit : List Finding) (performance : Performance) (weights : Weights) :
    Except Fault Report := do
  let score ← healthScore (signalsOf analysis hotspots audit) weights
  return {
    projectName, timestamp, hotspots, performance, score
    stats := analysis.stats
    graph := analysis.graph
    packages := analysis.packages
    security := securityOf audit analysis }

/-! ### The written form -/

/-- The value of a natural number. -/
def count (n : Nat) : Value := .int n

/-- The value of a list of texts. -/
def texts (items : List String) : Value := .list (items.map .str)

/-- The value of a map of texts. -/
def textMap (m : OrderedMap String) : Value := .map (m.map fun e => (e.1, .str e.2))

/-- The stored form of totals. -/
def storedStats (s : ProjectStats) : StoredStats where
  totalFiles := count s.totalFiles
  totalLines := count s.totalLines
  codeLines := count s.codeLines
  commentLines := count s.commentLines
  blankLines := count s.blankLines
  languages := .map (s.languages.map fun e => (e.1, count e.2))
  files := s.files.map fun f => {
    path := .str f.path, size := count f.size, extension := .str f.extension
    lines := { total := count f.lines.total, code := count f.lines.code
               comment := count f.lines.comment, blank := count f.lines.blank } }

/-- The stored form of the use of packages. -/
def storedUsage (u : PackageUsage) : StoredUsage where
  dependencies := textMap u.dependencies
  devDependencies := textMap u.devDependencies
  used := texts u.used
  unused := texts u.unused
  outdated := u.outdated.map fun o =>
    { name := .str o.name, current := .str o.current, latest := .str o.latest }
  suggestions := texts u.suggestions

/-- The stored form of a finding. -/
def storedFinding (f : Finding) : StoredFinding where
  name := .str f.name
  severity := f.severity
  description := f.description
  source := f.source
  category := .str f.category
  file := (f.file.map Value.str).getD .null
  line := (f.line.map count).getD .null

/-- The stored form of sizes and load time. -/
def storedPerformance (p : Performance) : StoredPerformance where
  bundleSize := .str p.bundleSize
  sourceSize := .str p.sourceSize
  loadTime := .str p.loadTime
  dependencyCount := count p.dependencyCount
  largeFiles := p.largeFiles.map fun f =>
    { path := .str f.path, size := .str f.size, lines := count f.lines }
  heavyPackages := p.heavyPackages.map fun h => { name := .str h.name, reason := .str h.reason }

/-- The report in the form in which it is written out. -/
def toStored (r : Report) : StoredReport where
  projectName := .str r.projectName
  timestamp := .str r.timestamp
  stats := storedStats r.stats
  hotspots := r.hotspots.map fun h => { file := .str h.file, commits := count h.commits }
  nodes := r.graph.nodes.map .str
  edges := r.graph.edges.map fun e => { source := .str e.source, target := .str e.target }
  packages := storedUsage r.packages
  security := r.security.map storedFinding
  performance := storedPerformance r.performance
  score := .int r.score

end Report

end ScriptHealth
