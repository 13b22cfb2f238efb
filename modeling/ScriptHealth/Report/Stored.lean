import ScriptHealth.Fault
import ScriptHealth.Json.Reader
import ScriptHealth.Json.Writer
import ScriptHealth.Security.Finding

/-!
# Stored reports

A report that was written out is read back from a decoded value. Its records have fixed fields,
some with defaults; the values in the fields are kept as they are.

## Main definitions

* `StoredReport.ofValue` reads a report and refuses records of the wrong shape
* `StoredReport.toValue` gives the value back
* `StoredReport.text` is the report as JSON text
-/

namespace ScriptHealth

/-- The line counts of a stored file. -/
structure StoredLines where
  total : Value := .int 0
  code : Value := .int 0
  comment : Value := .int 0
  blank : Value := .int 0

/-- A stored file. -/
structure StoredFile where
  path : Value
  size : Value
  extension : Value
  lines : StoredLines

/-- Stored totals. -/
structure StoredStats where
  totalFiles : Value := .int 0
  totalLines : Value := .int 0
  codeLines : Value := .int 0
  commentLines : Value := .int 0
  blankLines : Value := .int 0
  languages : Value := .map []
  files : List StoredFile := []

/-- A stored hotspot. -/
structure StoredHotspot where
  file : Value
  commits : Value

/-- A stored import. -/
structure StoredEdge where
  source : Value
  target : Value

/-- A stored package with a pinned range. -/
structure StoredPackage where
  name : Value
  current : Value
  latest : Value := .str "check npm registry"

/-- Stored use of packages. -/
structure StoredUsage where
  dependencies : Value := .map []
  devDependencies : Value := .map []
  used : Value := .list []
  unused : Value := .list []
  outdated : List StoredPackage := []
  suggestions : Value := .list []

/-- A stored finding. -/
structure StoredFinding where
  name : Value
  severity : Severity
  description : Value
  source : FindingSource
  category : Value
  file : Value := .null
  line : Value := .null

/-- A stored large file. -/
structure StoredLargeFile where
  path : Value
  size : Value
  lines : Value

/-- A stored heavy package. -/
structure StoredHeavyPackage where
  name : Value
  reason : Value

/-- Stored sizes and load time. -/
structure StoredPerformance where
  bundleSize : Value := .str "0B"
  sourceSize : Value := .str "0B"
  loadTime : Value := .str "0.3s"
  dependencyCount : Value := .int 0
  largeFiles : List StoredLargeFile := []
  heavyPackages : List StoredHeavyPackage := []

/-- A stored report. -/
structure StoredReport where
  projectName : Value
  timestamp : Value
  stats : StoredStats
  hotspots : List StoredHotspot
  nodes : List Value
  edges : List StoredEdge
  packages : StoredUsage
  security : List StoredFinding
  performance : StoredPerformance
  score : Value

namespace StoredReport

/-! ### Reading -/

/-- The entry of a record that has to be there. -/
def need (v : Value) (key : String) : Except Fault Value :=
  match v with
  | .map entries =>
    match OrderedMap.get? key entries with
    | some x => .ok x
    | none => .error (.missingKey key)
  | v => .error (.wrongKind ("'" ++ v.kindName ++ "' object is not subscriptable"))

/-- The items of a value that can be run through. -/
def itemsOf : Value → Except Fault (List Value)
  | .list vs => .ok vs
  | .str s => .ok (s.toList.map fun c => .str (String.singleton c))
  | .map es => .ok (es.map fun e => .str e.1)
  | v => .error (.notIterable v)

/-- The entries of a record, and whether a key is no text. -/
structure Fields where
  entries : OrderedMap Value
  otherKeys : Bool := false

/-- Take one pair into a record. -/
def Fields.addPair (fields : Fields) (index : Nat) (pair : Value) : Except Fault Fields :=
  match itemsOf pair with
  | .error _ => .error (.wrongKind
      s!"cannot convert dictionary update sequence element #{index} to a sequence")
  | .ok [.str key, v] => .ok { fields with entries := fields.entries.insert key v }
  | .ok [.list _, _] => .error (.wrongKind "unhashable type: 'list'")
  | .ok [.map _, _] => .error (.wrongKind "unhashable type: 'dict'")
  | .ok [_, _] => .ok { fields with otherKeys := true }
  | .ok vs => .error (.badValue (
      s!"dictionary update sequence element #{index} has length {vs.length}; 2 is required"))

/-- The record in a value: a map, or pairs that can be run through. -/
def fieldsOf : Value → Except Fault Fields
  | .map entries => .ok { entries }
  | v => do
    let pairs ← itemsOf v
    pairs.zipIdx.foldlM (fun fields (pair, index) => fields.addPair index pair) { entries := [] }

/-- The entries of a value that has to be a map. -/
def mapOf : Value → Except Fault (OrderedMap Value)
  | .map entries => .ok entries
  | v => .error (.wrongKind ("argument after ** must be a mapping, not " ++ v.kindName))

/-- The shape of a record: the fields that have to be there and the fields that have defaults. -/
structure Shape where
  name : String
  required : List String := []
  optional : List String := []

/-- Check that a record has no further fields and all required ones. -/
def Shape.check (shape : Shape) (entries : OrderedMap Value) : Except Fault Unit :=
  match entries.find? fun e => !(shape.required ++ shape.optional).contains e.1 with
  | some e => .error (.unexpectedField shape.name e.1)
  | none =>
    match shape.required.find? fun k => !entries.contains k with
    | some k => .error (.wrongKind (shape.name ++ ".__init__() missing required argument '" ++ k ++ "'"))
    | none => .ok ()

/-- A field of a checked record, or its default. -/
def pickOr (entries : OrderedMap Value) (key : String) (default : Value) : Value :=
  (entries.get? key).getD default

/-- A field of a checked record, or null. -/
def pick (entries : OrderedMap Value) (key : String) : Value := pickOr entries key .null

/-- Read the line counts of a file. -/
def linesOf (v : Value) : Except Fault StoredLines := do
  let es ← mapOf v
  Shape.check { name := "LocStats"
                optional := ["total_lines", "code_lines", "comment_lines", "blank_lines"] } es
  return { total := pickOr es "total_lines" (.int 0), code := pickOr es "code_lines" (.int 0)
           comment := pickOr es "comment_lines" (.int 0), blank := pickOr es "blank_lines" (.int 0) }

/-- Read a file. -/
def fileOf (v : Value) : Except Fault StoredFile := do
  let es ← mapOf v
  let lines ← linesOf (← need v "loc")
  Shape.check { name := "ProjectFile", required := ["path", "size", "extension", "loc"] } es
  return { path := pick es "path", size := pick es "size", extension := pick es "extension", lines }

/-- Read a hotspot. -/
def hotspotOf (v : Value) : Except Fault StoredHotspot := do
  let es ← mapOf v
  Shape.check { name := "Hotspot", required := ["file", "commits"] } es
  return { file := pick es "file", commits := pick es "commits" }

/-- Read an import. -/
def edgeOf (v : Value) : Except Fault StoredEdge := do
  let es ← mapOf v
  Shape.check { name := "Edge", required := ["source", "target"] } es
  return { source := pick es "source", target := pick es "target" }

/-- Read a package with a pinned range. -/
def packageOf (v : Value) : Except Fault StoredPackage := do
  let es ← mapOf v
  Shape.check { name := "OutdatedPackage", required := ["name", "current"], optional := ["latest"] }
    es
  return { name := pick es "name", current := pick es "current"
           latest := pickOr es "latest" (.str "check npm registry") }

/-- Read a large file. -/
def largeFileOf (v : Value) : Except Fault StoredLargeFile := do
  let es ← mapOf v
  Shape.check { name := "LargeFile", required := ["path", "size", "lines"] } es
  return { path := pick es "path", size := pick es "size", lines := pick es "lines" }

/-- Read a heavy package. -/
def heavyPackageOf (v : Value) : Except Fault StoredHeavyPackage := do
  let es ← mapOf v
  Shape.check { name := "HeavyDependency", required := ["name", "reason"] } es
  return { name := pick es "name", reason := pick es "reason" }

/-- Read a severity. -/
def severityOf (v : Value) : Except Fault Severity :=
  let found := match v with
    | .str s => Severity.ofName? s
    | _ => none
  match found with
  | some s => .ok s
  | none => .error (.badValue (v.literal ++ " is not a valid Severity"))

/-- Read the source of a finding. -/
def sourceOf (v : Value) : Except Fault FindingSource :=
  let found := match v with
    | .str s => FindingSource.ofName? s
    | _ => none
  match found with
  | some s => .ok s
  | none => .error (.badValue (v.literal ++ " is not a valid FindingSource"))

/-- Read a finding. -/
def findingOf (v : Value) : Except Fault StoredFinding := do
  let es ← mapOf v
  let severity ← severityOf (← need v "severity")
  let source ← sourceOf (← need v "source")
  Shape.check { name := "SecurityFinding"
                required := ["name", "severity", "description", "source", "category"]
                optional := ["file", "line"] } es
  return { name := pick es "name", severity, description := pick es "description", source
           category := pick es "category", file := pick es "file", line := pick es "line" }

/-- The items of an optional field, each read by `read`. -/
def itemsIn {α : Type} (entries : OrderedMap Value) (key : String)
    (read : Value → Except Fault α) : Except Fault (List α) := do
  (← itemsOf (pickOr entries key (.list []))).mapM read

/-- The fault of a record whose keys are not all texts. -/
def keysNotText : Fault := .wrongKind "keywords must be strings"

/-- Read a report. The parts are read in a fixed order, which decides the fault of a value that is
wrong in several places. -/
def ofValue (v : Value) : Except Fault StoredReport := do
  let stats ← fieldsOf (← need v "stats")
  let files ← itemsIn stats.entries "file_list" fileOf
  let graph ← need v "dependencies"
  let packages ← fieldsOf (← need v "package_dependencies")
  let outdated ← itemsIn packages.entries "outdated" packageOf
  let performance ← fieldsOf (← need v "performance")
  let largeFiles ← itemsIn performance.entries "large_files" largeFileOf
  let heavyPackages ← itemsIn performance.entries "heavy_dependencies" heavyPackageOf
  let projectName ← need v "project_name"
  let timestamp ← need v "timestamp"
  if stats.otherKeys then throw keysNotText
  Shape.check { name := "ProjectStats"
                optional := ["total_files", "total_loc", "total_code_lines",
                  "total_comment_lines", "total_blank_lines", "languages", "file_list"] }
    stats.entries
  -- the fields that may be missing are looked up only now
  let es ← mapOf v
  let hotspots ← itemsIn es "hotspots" hotspotOf
  let graphEntries ← match graph with
    | .map entries => pure entries
    | _ => throw .noOperation
  let nodes ← itemsOf (pickOr graphEntries "nodes" (.list []))
  let edges ← itemsIn graphEntries "edges" edgeOf
  if packages.otherKeys then throw keysNotText
  Shape.check { name := "PackageUsage"
                optional := ["dependencies", "dev_dependencies", "used", "unused", "outdated",
                  "suggestions"] } packages.entries
  let security ← itemsIn es "security" findingOf
  if performance.otherKeys then throw keysNotText
  Shape.check { name := "PerformanceMetrics"
                optional := ["bundle_size", "source_size", "load_time", "dependency_count",
                  "large_files", "heavy_dependencies"] } performance.entries
  let score ← need v "score"
  let s := stats.entries
  let u := packages.entries
  let p := performance.entries
  return {
    projectName, timestamp, hotspots, nodes, edges, security, score
    stats := {
      totalFiles := pickOr s "total_files" (.int 0), totalLines := pickOr s "total_loc" (.int 0)
      codeLines := pickOr s "total_code_lines" (.int 0)
      commentLines := pickOr s "total_comment_lines" (.int 0)
      blankLines := pickOr s "total_blank_lines" (.int 0)
      languages := pickOr s "languages" (.map []), files }
    packages := {
      dependencies := pickOr u "dependencies" (.map [])
      devDependencies := pickOr u "dev_dependencies" (.map [])
      used := pickOr u "used" (.list []), unused := pickOr u "unused" (.list []), outdated
      suggestions := pickOr u "suggestions" (.list []) }
    performance := {
      bundleSize := pickOr p "bundle_size" (.str "0B"), sourceSize := pickOr p "source_size" (.str "0B")
      loadTime := pickOr p "load_time" (.str "0.3s")
      dependencyCount := pickOr p "dependency_count" (.int 0), largeFiles, heavyPackages } }

/-! ### Writing -/

/-- The value of the line counts of a file. -/
def linesValue (l : StoredLines) : Value :=
  .map [("total_lines", l.total), ("code_lines", l.code), ("comment_lines", l.comment),
    ("blank_lines", l.blank)]

/-- The value of a file. -/
def fileValue (f : StoredFile) : Value :=
  .map [("path", f.path), ("size", f.size), ("extension", f.extension), ("loc", linesValue f.lines)]

/-- The value of a hotspot. -/
def hotspotValue (h : StoredHotspot) : Value := .map [("file", h.file), ("commits", h.commits)]

/-- The value of an edge. -/
def edgeValue (e : StoredEdge) : Value := .map [("source", e.source), ("target", e.target)]

/-- The value of a package with a pinned range. -/
def packageValue (p : StoredPackage) : Value :=
  .map [("name", p.name), ("current", p.current), ("latest", p.latest)]

/-- The value of a large file. -/
def largeFileValue (f : StoredLargeFile) : Value :=
  .map [("path", f.path), ("size", f.size), ("lines", f.lines)]

/-- The value of a heavy package. -/
def heavyPackageValue (p : StoredHeavyPackage) : Value :=
  .map [("name", p.name), ("reason", p.reason)]

/-- The value of the totals. -/
def statsValue (s : StoredStats) : Value :=
  .map [("total_files", s.totalFiles), ("total_loc", s.totalLines),
    ("total_code_lines", s.codeLines), ("total_comment_lines", s.commentLines),
    ("total_blank_lines", s.blankLines), ("languages", s.languages),
    ("file_list", .list (s.files.map fileValue))]

/-- The value of the use of packages. -/
def usageValue (u : StoredUsage) : Value :=
  .map [("dependencies", u.dependencies), ("dev_dependencies", u.devDependencies),
    ("used", u.used), ("unused", u.unused),
    ("outdated", .list (u.outdated.map packageValue)), ("suggestions", u.suggestions)]

/-- The value of a finding. -/
def findingValue (f : StoredFinding) : Value :=
  .map [("name", f.name), ("severity", .str f.severity.name), ("description", f.description),
    ("source", .str f.source.name), ("category", f.category), ("file", f.file), ("line", f.line)]

/-- The value of the sizes and the load time. -/
def performanceValue (p : StoredPerformance) : Value :=
  .map [("bundle_size", p.bundleSize), ("source_size", p.sourceSize), ("load_time", p.loadTime),
    ("dependency_count", p.dependencyCount),
    ("large_files", .list (p.largeFiles.map largeFileValue)),
    ("heavy_dependencies", .list (p.heavyPackages.map heavyPackageValue))]

/-- The value of a report, with the fields in their fixed order. -/
def toValue (r : StoredReport) : Value :=
  .map [("project_name", r.projectName), ("timestamp", r.timestamp),
    ("stats", statsValue r.stats), ("hotspots", .list (r.hotspots.map hotspotValue)),
    ("dependencies", .map [("nodes", .list r.nodes), ("edges", .list (r.edges.map edgeValue))]),
    ("package_dependencies", usageValue r.packages),
    ("security", .list (r.security.map findingValue)),
    ("performance", performanceValue r.performance), ("score", r.score)]

/-- The report as JSON text. -/
def text (r : StoredReport) : String := Json.render r.toValue

/-- Whether reading the text of a report gives the report back. -/
def readsBack (r : StoredReport) : Bool :=
  match Json.parse r.text.toList with
  | .error _ => false
  | .ok v =>
    match ofValue v with
    | .error _ => false
    | .ok r' => r'.toValue.same r.toValue

end StoredReport

end ScriptHealth
