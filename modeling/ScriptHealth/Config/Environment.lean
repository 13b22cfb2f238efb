import ScriptHealth.Config.Basic
import ScriptHealth.Number.Numeral
import ScriptHealth.Text.Lowercase

/-!
# Settings from the environment

Every scalar setting has a variable of its own. The text of a variable is read by the kind of the
setting; settings that are lists or weights cannot come from the environment.
-/

namespace ScriptHealth

open Number

/-- The kinds of settings. An optional setting is read as its inner kind. -/
inductive SettingKind where
  | switch
  | integer
  | fraction
  | text
  | structured
  deriving DecidableEq, Repr

namespace Environment

/-- The words for a switch that is on. -/
def onWords : List String := ["true", "1", "yes", "on"]

/-- The words for a switch that is off. -/
def offWords : List String := ["false", "0", "no", "off"]

/-- The first characters of the quoted form of a text. -/
def quotedUpTo (limit : Nat) (s : String) : String := String.ofList ((Text.quoted s.toList).take limit)

/-- Read a switch. -/
def readSwitch (s : String) : Except Fault Value :=
  let word := String.ofList (Text.lower s.toList)
  if onWords.contains word then .ok (.bool true)
  else if offWords.contains word then .ok (.bool false)
  else .error (.badValue ("expected true/false, got '" ++ s ++ "'"))

/-- Read an integer. -/
def readInteger (s : String) : Except Fault Value :=
  match readInt s.toList with
  | .ok n => .ok (.int n)
  | .error .malformed =>
    .error (.badValue ("invalid literal for int() with base 10: " ++ quotedUpTo 200 s))
  | .error (.tooManyDigits n) => .error (.tooManyDigits n)

/-- Read a fraction. -/
def readFraction (s : String) : Except Fault Value :=
  match readReal s.toList with
  | some x => .ok (.real x)
  | none => .error (.badValue ("could not convert string to float: " ++ Value.quotedText s))

/-- Read the text of a variable by the kind of its setting. -/
def read (kind : SettingKind) (s : String) : Except Fault (Option Value) :=
  match kind with
  | .switch => (readSwitch s).map some
  | .integer => (readInteger s).map some
  | .fraction => (readFraction s).map some
  | .text => .ok (some (.str s))
  | .structured => .ok none

/-- The settings and their kinds, in their fixed order. -/
def kinds : List (String × SettingKind) :=
  [("workers", .integer), ("max_nodes", .integer), ("max_edges", .integer),
   ("enable_audit", .switch), ("audit_timeout_seconds", .integer), ("enable_git", .switch),
   ("hotspot_limit", .integer), ("extensions", .structured), ("exclude_dirs", .structured),
   ("exclude_files", .structured), ("output_dir", .text), ("verbosity", .text),
   ("weights", .structured)]

/-- The variable of a setting. -/
def variableOf (name : String) : String := "MODULY_" ++ String.ofList (name.toList.map Char.toUpper)

/-- What the environment gives for a setting; `lookup` gives the text of a variable. -/
def settingOf (lookup : String → Option String) (name : String) (kind : SettingKind) :
    Except Fault (Option Value) :=
  match lookup (variableOf name) with
  | none => .ok none
  | some s =>
    match read kind s with
    | .error (.badValue reason) =>
      .error (.issue (.invalidConfig (.str (variableOf name)) s (.str reason)))
    | outcome => outcome

/-- The settings that the environment gives. -/
def settings (lookup : String → Option String) : Except Fault (OrderedMap Value) := do
  let found ← kinds.mapM fun e => (settingOf lookup e.1 e.2).map fun v => v.map (e.1, ·)
  return found.filterMap id

end Environment

end ScriptHealth
