/-!
# Log records

Operations report what they skip as log records. A record has a level, the name of the part that
speaks, and a template with its arguments; arguments that are whole numbers are filled in when the
record is shown.

## Main definitions

* `Level.rank`, `threshold` decide which records are shown
* `Log.Record.shown` fills in the arguments of a template
* `loggerName` puts a name under the common root
-/

namespace ScriptHealth

/-- How urgent a record is. -/
inductive Level where
  | debug
  | info
  | warning
  | error
  | critical
  deriving DecidableEq, Repr

namespace Level

/-- The name of a level. -/
def name : Level → String
  | .debug => "DEBUG"
  | .info => "INFO"
  | .warning => "WARNING"
  | .error => "ERROR"
  | .critical => "CRITICAL"

/-- The urgency as a number. -/
def rank : Level → Nat
  | .debug => 10
  | .info => 20
  | .warning => 30
  | .error => 40
  | .critical => 50

/-- The level of a name. -/
def ofName? (s : String) : Option Level :=
  [Level.debug, .info, .warning, .error, .critical].find? (·.name == s)

end Level

namespace Log

/-- An argument of a template. -/
inductive Argument where
  | number (n : Int)
  | text (s : String)
  deriving DecidableEq, Repr

/-- A log record. -/
structure Record where
  level : Level
  logger : String
  template : String
  arguments : List Argument := []
  deriving DecidableEq, Repr

/-- Fill numbers into the places of a template that are marked by a percent sign and a letter. -/
def fill : List Char → List Int → List Char
  | '%' :: c :: r, n :: ns =>
    if c = 'd' then (toString n).toList ++ fill r ns else '%' :: c :: fill r (n :: ns)
  | c :: r, ns => c :: fill r ns
  | [], _ => []

/-- The arguments, if all of them are numbers. -/
def Record.numbers? (r : Record) : Option (List Int) :=
  r.arguments.mapM fun
    | .number n => some n
    | .text _ => none

/-- The template with its arguments filled in when all of them are numbers, and the template
itself otherwise. -/
def Record.shown (r : Record) : String :=
  match r.numbers? with
  | some ns => String.ofList (fill r.template.toList ns)
  | none => r.template

end Log

/-- The name under which all records are logged. -/
def rootLogger : String := "moduly"

/-- The name of a logger: names outside the root are put under it. -/
def loggerName : Option String → String
  | none => rootLogger
  | some name => if rootLogger.toList.isPrefixOf name.toList then name else rootLogger ++ "." ++ name

/-- What a user asked for when logging was set up. -/
structure LogRequest where
  verbose : Bool := false
  quiet : Bool := false
  toFile : Bool := false

/-- The least level that is shown; quiet wins over verbose. -/
def LogRequest.threshold (r : LogRequest) : Level :=
  if r.quiet then .error else if r.verbose then .debug else .warning

/-- The line of a record in a log file, after its time. -/
def fileLine (logger : String) (level : Level) (message : String) : String :=
  logger ++ " - " ++ level.name ++ " - " ++ message

/-- The lines that reach the log file after the last of a sequence of set-ups; `none` when no
set-up ever opened a file. -/
def fileLines (requests : List LogRequest) (records : List (Option String × Level × String)) :
    Option (List String) :=
  match requests.getLast? with
  | none => none
  | some last =>
    if last.toFile then
      some ((records.filter fun r => last.threshold.rank ≤ r.2.1.rank).map fun r =>
        fileLine (loggerName r.1) r.2.1 r.2.2)
    else if requests.any (·.toFile) then some []
    else none

end ScriptHealth
