import ScriptHealth.Value.Basic

/-!
# Failures

An `Issue` is a failure that the analyser reports in its own words: a message and named details.
A `Fault` is any failure of an operation: an issue, or a value that an operation cannot take.

## Main definitions

* `Issue.text` is the message followed by the details in parentheses
* `Issue.fileAccess`, `Issue.parsing`, `Issue.invalidPath`, `Issue.invalidConfig` build issues
* `Issue.ofArguments` builds an issue of a given kind from a list of values
-/

namespace ScriptHealth

/-- The kinds of issues. -/
inductive IssueKind where
  | general
  | analysis
  | fileAccess
  | parsing
  | configuration
  | invalidPath
  | invalidConfig
  deriving DecidableEq, Repr

/-- The next wider kind. -/
def IssueKind.parent? : IssueKind → Option IssueKind
  | .general => none
  | .analysis | .configuration => some .general
  | .fileAccess | .parsing => some .analysis
  | .invalidPath | .invalidConfig => some .configuration

/-- The kind itself and all wider kinds, nearest first. -/
def IssueKind.lineage (k : IssueKind) : List IssueKind :=
  match k.parent? with
  | none => [k]
  | some p =>
    match p.parent? with
    | none => [k, p]
    | some g => [k, p, g]

/-- A failure reported by the analyser itself. -/
structure Issue where
  kind : IssueKind
  message : String
  details : OrderedMap Value := []

namespace Issue

/-- The message, followed by the details in parentheses if there are any. -/
def text (i : Issue) : String :=
  if i.details.isEmpty then i.message
  else
    let shown := i.details.map fun d => d.1 ++ "=" ++ d.2.text
    i.message ++ " (" ++ ", ".intercalate shown ++ ")"

/-- A configuration cannot be used. -/
def configuration (message : String) : Issue := { kind := .configuration, message }

/-- A file or directory cannot be read. -/
def fileAccess (path : String) (reason : Value) : Issue :=
  { kind := .fileAccess, message := "Cannot access file: " ++ path,
    details := [("filepath", .str path), ("reason", reason)] }

/-- The text of a file cannot be parsed. -/
def parsing (path : String) (language reason : Value) : Issue :=
  { kind := .parsing, message := "Failed to parse " ++ language.text ++ " file: " ++ path,
    details := [("filepath", .str path), ("language", language), ("reason", reason)] }

/-- A path does not name a project. -/
def invalidPath (path : String) (reason : Value) : Issue :=
  { kind := .invalidPath, message := "Invalid path: " ++ path,
    details := [("path", .str path), ("reason", reason)] }

/-- A setting has a value that is not allowed; `shown` is the text of the value. -/
def invalidConfig (key : Value) (shown : String) (reason : Value) : Issue :=
  { kind := .invalidConfig,
    message := "Invalid configuration for " ++ key.text ++ ": " ++ shown,
    details := [("key", key), ("value", .str shown), ("reason", reason)] }

end Issue

/-- A failure of an operation. -/
inductive Fault where
  | issue (i : Issue)
  /-- A value of the right kind that is not allowed. -/
  | badValue (reason : String)
  /-- A value of the wrong kind. -/
  | wrongKind (reason : String)
  /-- An operation that the kind of a value does not have. -/
  | noOperation
  /-- A key that a map does not have. -/
  | missingKey (key : String)
  /-- A number outside the range of its kind. -/
  | outOfRange (reason : String)
  /-- Bytes that are not UTF-8. -/
  | undecodable
  /-- A style tag that closes nothing. -/
  | unbalancedMarkup
  /-- A value that cannot be shown in a table. -/
  | unrenderable
  /-- An operation on files that failed. -/
  | system (reason : String)
  /-- Links that lead to each other. -/
  | linkLoop

namespace Fault

/-- The fault of an integer text with too many digits. -/
def tooManyDigits (count : Nat) : Fault :=
  .badValue (s!"Exceeds the limit (4300 digits) for integer string conversion: value has {count} " ++
    "digits; use sys.set_int_max_str_digits() to increase the limit")

/-- The fault of an integer that has too many digits to be written out. -/
def unwritableInteger : Fault :=
  .badValue ("Exceeds the limit (4300 digits) for integer string conversion; use " ++
    "sys.set_int_max_str_digits() to increase the limit")

/-- The fault of comparing a value with an integer that it cannot be compared with. -/
def notComparable (v : Value) : Fault :=
  .wrongKind ("'<' not supported between instances of '" ++ v.kindName ++ "' and 'int'")

/-- The fault of running through a value that has no items. -/
def notIterable (v : Value) : Fault := .wrongKind ("'" ++ v.kindName ++ "' object is not iterable")

/-- The fault of an argument name that a record does not have. The name of the record itself is
taken. -/
def unexpectedField (record field : String) : Fault :=
  if field = "self" then .wrongKind (record ++ ".__init__() got multiple values for argument 'self'")
  else .wrongKind (record ++ ".__init__() got an unexpected keyword argument '" ++ field ++ "'")

end Fault

/-- Build an issue of a kind from the values of its parts. The two widest kinds and their direct
children take a message and an optional map of details. -/
def Issue.ofArguments (kind : IssueKind) (arguments : List Value) : Except Fault Issue :=
  match kind, arguments with
  | .fileAccess, [path, reason] => .ok (.fileAccess path.text reason)
  | .parsing, [path, language, reason] => .ok (.parsing path.text language reason)
  | .invalidPath, [path, reason] => .ok (.invalidPath path.text reason)
  | .invalidConfig, [key, value, reason] => .ok (.invalidConfig key value.text reason)
  | .general, [.str message] | .analysis, [.str message] | .configuration, [.str message] =>
    .ok { kind, message }
  | .general, [.str message, details] | .analysis, [.str message, details]
  | .configuration, [.str message, details] =>
    match details with
    | .map entries => .ok { kind, message, details := entries }
    | v => if v.isTruthy then .error .noOperation else .ok { kind, message }
  | _, _ => .error (.wrongKind "wrong number of arguments")

end ScriptHealth
