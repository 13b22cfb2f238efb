import ScriptHealth.Number.Fixed
import ScriptHealth.Number.Quantity
import ScriptHealth.Report.Stored

/-!
# Terminal summary of a report

The summary is a sequence of things to show: styled lines, empty lines, a panel and tables. Styles
are tags in brackets; how they are drawn is left to the terminal.

## Main definitions

* `Summary.Item` is one thing to show
* `Summary.of` lists the things to show for a report
-/

namespace ScriptHealth.Summary

/-- The side to which the cells of a column are pushed. -/
inductive Side where
  | left
  | right
  deriving DecidableEq, Repr

/-- A column of a table. -/
structure Column where
  header : String
  style : String := ""
  side : Side := .left
  ratio : Option Nat := none
  width : Option Nat := none

/-- One thing to show. -/
inductive Item where
  | line (markup : String)
  | empty
  | panel (markup title : String)
  | table (title : String) (columns : List Column) (rows : List (List String))

/-- The number of files in the table of largest files. -/
def topFiles : Nat := 10

/-- The number of findings in the table of findings. -/
def topFindings : Nat := 20

/-- A text in a style. -/
def styled (style s : String) : String := "[" ++ style ++ "]" ++ s ++ "[/" ++ style ++ "]"

/-- The score, in green from 80 on, in yellow from 50 on, and in red below. -/
def scoreLabel (score : Value) : Except Fault String :=
  match Quantity.ofValue? score with
  | none => .error (.wrongKind ("'>=' not supported between instances of '" ++ score.kindName ++
      "' and 'int'"))
  | some q =>
    let style := if Quantity.le (.int 80) q then "green bold"
      else if Quantity.le (.int 50) q then "yellow bold" else "red bold"
    .ok (styled style score.text)

/-- The style of a severity. -/
def severityStyle : Severity → String
  | .critical => "red bold"
  | .high => "red"
  | .medium => "yellow"
  | .low => "dim"

/-- A value as a cell of a table: a text, or nothing for null. -/
def cell : Value → Except Fault String
  | .str s => .ok s
  | .null => .ok ""
  | _ => .error .unrenderable

/-- Where a finding is: its file and line, its file, or a dash. -/
def location (file line : Value) : Except Fault String :=
  match file, line with
  | .null, _ => .ok "-"
  | f, .null => cell f
  | f, l => .ok (f.text ++ ":" ++ l.text)

/-- The number of items of a value. -/
def size (v : Value) : Except Fault Nat :=
  match v with
  | .str s => .ok s.length
  | .list vs => .ok vs.length
  | .map es => .ok es.length
  | v => .error (.wrongKind ("object of type '" ++ v.kindName ++ "' has no len()"))

/-- The languages, most files first; equal numbers keep their order. -/
def sortLanguages (entries : OrderedMap Value) : Except Fault (OrderedMap Value) :=
  if entries.length ≤ 1 then .ok entries
  else
    match entries.mapM fun e => (Quantity.ofValue? e.2).map (e, ·) with
    | some counted =>
      .ok ((counted.mergeSort fun a b => !a.2.lt b.2).map (·.1))
    | none => .error (.wrongKind "'<' not supported between counts")

/-- The languages with their numbers of files. -/
def languageList (languages : Value) : Except Fault String :=
  match languages with
  | .map entries => do
    let sorted ← sortLanguages entries
    return ", ".intercalate (sorted.map fun e => e.1 ++ " (" ++ e.2.text ++ ")")
  | _ => .error .noOperation

/-- The edges per node with two places. -/
def coupling (r : StoredReport) : String :=
  String.ofList ((Number.Binary64.ofRatio false r.edges.length (max r.nodes.length 1)).fixed 2)

/-- The panel with the score and the totals. -/
def overview (r : StoredReport) : Except Fault (List Item) := do
  let languages ← languageList r.stats.languages
  let score ← scoreLabel r.score
  let s := r.stats
  let markup :=
    "Health score: " ++ score ++ "/100\n" ++
    "Files: " ++ styled "bold" s.totalFiles.text ++ "  |  " ++
    "Lines: " ++ styled "bold" s.totalLines.text ++ " (" ++
    styled "cyan" s.codeLines.text ++ " code, " ++
    styled "cyan" s.commentLines.text ++ " comments)\n" ++
    "Modules: " ++ styled "bold" (toString r.nodes.length) ++ "  |  " ++
    "Imports: " ++ styled "bold" (toString r.edges.length) ++ "  |  " ++
    "Coupling: " ++ styled "blue" (coupling r) ++ "\n" ++
    "Languages: " ++ styled "cyan" (if languages.isEmpty then "none" else languages)
  return [.panel markup (styled "bold cyan" r.projectName.text), .empty]

/-- The table of the largest files. -/
def files (r : StoredReport) : Except Fault (List Item) := do
  let shown := r.stats.files.take topFiles
  if shown.isEmpty then return []
  let rows ← shown.mapM fun f => do
    return [← cell f.path, f.lines.code.text, f.lines.comment.text, f.lines.total.text]
  return [.table "Largest Files"
    [{ header := "File", style := "yellow", ratio := some 3 }, { header := "Code", side := .right },
     { header := "Comments", side := .right }, { header := "Total", side := .right, style := "dim" }]
    rows, .empty]

/-- The table of hotspots. -/
def hotspots (r : StoredReport) : Except Fault (List Item) := do
  if r.hotspots.isEmpty then return []
  let rows ← r.hotspots.mapM fun h => do return [← cell h.file, h.commits.text]
  return [.table "Hotspots"
    [{ header := "File", style := "yellow", ratio := some 3 },
     { header := "Commits", side := .right }] rows, .empty]

/-- The text of an item that is joined with others. -/
def joined : Value → Except Fault String
  | .str s => .ok s
  | v => .error (.wrongKind ("expected str instance, " ++ v.kindName ++ " found"))

/-- The lines about packages. -/
def packages (r : StoredReport) : Except Fault (List Item) := do
  let u := r.packages
  if !u.dependencies.isTruthy && !u.devDependencies.isTruthy then return []
  let used ← size u.used
  let unused ← size u.unused
  let head := Item.line (styled "bold" "Packages:" ++ s!" {used} used, " ++
    styled "yellow" (toString unused) ++ " unused, " ++
    styled "yellow" (toString u.outdated.length) ++ " floating ranges")
  let unusedLine ←
    if u.unused.isTruthy then do
      let names ← (← StoredReport.itemsOf u.unused).mapM joined
      pure [Item.line ("  " ++ styled "red" "-" ++ " Unused: " ++ ", ".intercalate names)]
    else pure []
  let outdated := u.outdated.map fun p =>
    Item.line ("  " ++ styled "yellow" "~" ++ " " ++ p.name.text ++ " " ++ p.current.text)
  let suggestions := (← StoredReport.itemsOf u.suggestions).map fun s =>
    Item.line ("  " ++ styled "green" "->" ++ " " ++ s.text)
  return [head] ++ unusedLine ++ outdated ++ suggestions ++ [.empty]

/-- The table of findings. -/
def findings (r : StoredReport) : Except Fault (List Item) := do
  if r.security.isEmpty then return [.line (styled "green" "No security findings"), .empty]
  let total := r.security.length
  let shown := r.security.take topFindings
  let rows ← shown.mapM fun f => do
    return [styled (severityStyle f.severity) f.severity.name, ← cell f.name,
            ← location f.file f.line, ← cell f.description]
  let more := if shown.length < total then
      [Item.line (styled "dim" s!"... and {total - shown.length} more (use --json)")] else []
  return [.table s!"Security Findings ({total})"
    [{ header := "Severity", width := some 10 },
     { header := "Finding", style := "bold", ratio := some 2 },
     { header := "Location", style := "yellow", ratio := some 2 },
     { header := "Description", ratio := some 3 }] rows] ++ more ++ [.empty]

/-- The lines about sizes and load time. -/
def performance (r : StoredReport) : List Item :=
  let p := r.performance
  let warning (s : String) : Item := .line ("  " ++ styled "yellow" "!" ++ " " ++ s)
  [Item.line (styled "bold" "Performance:" ++ " bundle ~" ++ p.bundleSize.text ++ ", source " ++
    p.sourceSize.text ++ ", est. load " ++ p.loadTime.text)] ++
  p.largeFiles.map (fun f =>
    warning (f.path.text ++ " (" ++ f.size.text ++ ", " ++ f.lines.text ++ " lines)")) ++
  p.heavyPackages.map (fun h => warning (h.name.text ++ ": " ++ h.reason.text)) ++ [.empty]

/-- The things to show for a report, in order. -/
def of (r : StoredReport) : Except Fault (List Item) := do
  let top ← overview r
  let files ← files r
  let hotspots ← hotspots r
  let packages ← packages r
  let findings ← findings r
  return top ++ files ++ hotspots ++ packages ++ findings ++ performance r

end ScriptHealth.Summary
