import ScriptHealth.Fault

/-!
# Styles of output

A report is shown as tables on a terminal or as JSON text. A style is chosen by its name.
-/

namespace ScriptHealth

/-- The styles in which a report is shown. -/
inductive ReportStyle where
  | tables
  | json
  deriving DecidableEq, Repr

namespace ReportStyle

/-- The name by which a style is chosen. -/
def name : ReportStyle → String
  | .tables => "rich"
  | .json => "json"

/-- All styles, in the order of their names. -/
def all : List ReportStyle := [.json, .tables]

/-- The style of a name; another name is refused with the list of names. -/
def ofName (s : String) : Except Fault ReportStyle :=
  match all.find? (·.name == s) with
  | some style => .ok style
  | none => .error (.badValue ("Unknown formatter: " ++ Value.quotedText s ++ ". Choose from: " ++
      ", ".intercalate (all.map name)))

end ReportStyle

end ScriptHealth
