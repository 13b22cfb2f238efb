import ScriptHealth.Fault
import ScriptHealth.Log

/-!
# Computations that log

A step of an analysis may fail, and it leaves log records behind.
-/

namespace ScriptHealth

/-- A computation that may fail and that leaves log records. -/
abbrev Logged (α : Type) := StateT (List Log.Record) (Except Fault) α

namespace Logged

/-- Leave a record. -/
def note (level : Level) (logger template : String) (arguments : List Log.Argument) : Logged Unit :=
  modify (· ++ [{ level, logger, template, arguments }])

/-- The result and the records of a computation. -/
def result {α : Type} (c : Logged α) : Except Fault (α × List Log.Record) := c.run []

end Logged

end ScriptHealth
