import ScriptHealth.Value.Basic

/-!
# Security findings

A finding has a severity and comes from the dependency audit or from the scan of the code. Findings
are ordered by severity; findings of equal severity keep their order.
-/

namespace ScriptHealth

/-- How severe a finding is. -/
inductive Severity where
  | critical
  | high
  | medium
  | low
  deriving DecidableEq, Repr

namespace Severity

/-- All severities, most severe first. -/
def all : List Severity := [.critical, .high, .medium, .low]

/-- The name of a severity. -/
def name : Severity → String
  | .critical => "critical"
  | .high => "high"
  | .medium => "medium"
  | .low => "low"

/-- The place in the order of findings. -/
def rank : Severity → Nat
  | .critical => 0
  | .high => 1
  | .medium => 2
  | .low => 3

/-- The severity of a name. -/
def ofName? (s : String) : Option Severity := all.find? (·.name == s)

end Severity

/-- Where a finding comes from. -/
inductive FindingSource where
  | dependencyAudit
  | codeScan
  deriving DecidableEq, Repr

namespace FindingSource

/-- The name of a source. -/
def name : FindingSource → String
  | .dependencyAudit => "dependency-audit"
  | .codeScan => "code-scan"

/-- The source of a name. -/
def ofName? (s : String) : Option FindingSource := [dependencyAudit, codeScan].find? (·.name == s)

end FindingSource

/-- A security observation. File and line are known for findings of the code scan only; the
description of an audit finding is whatever the audit gave. -/
structure Finding where
  name : String
  severity : Severity
  description : Value
  source : FindingSource
  category : String
  file : Option String := none
  line : Option Nat := none

namespace Finding

/-- Whether `a` may stand before `b`. -/
def before (a b : Finding) : Bool := a.severity.rank ≤ b.severity.rank

/-- The findings by severity; equal severities keep their order. -/
def sort (findings : List Finding) : List Finding := findings.mergeSort before

/-- The number of findings of a severity. -/
def count (s : Severity) (findings : List Finding) : Nat := findings.countP (·.severity == s)

end Finding

end ScriptHealth
