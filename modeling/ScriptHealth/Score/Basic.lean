import ScriptHealth.Hotspot
import ScriptHealth.Score.Weights
import ScriptHealth.Security.Finding

/-!
# The health score

The score starts at 100. Size, active hotspots, coupling, unused packages, findings and missing
comments each take off a deduction of their own, and the rest is rounded down and clamped to the
range from 0 to 100.

## Main definitions

* `Signals` are the aggregated inputs
* `Breakdown.ofComparisons` computes the deductions from the outcome of the two comparisons
* `Breakdown.of` computes the deductions
* `Breakdown.score` is the score that remains
-/

namespace ScriptHealth

open Number

/-- The aggregated inputs of the score. -/
structure Signals where
  files : Nat := 0
  lines : Nat := 0
  codeLines : Nat := 0
  commentLines : Nat := 0
  hotspots : List Hotspot := []
  nodes : Nat := 0
  edges : Nat := 0
  unused : Nat := 0
  findings : List Finding := []

/-- The quotient of two counts; it may be too large for a fraction. -/
def countRatio (num den : Nat) : Except Fault Binary64 :=
  match Binary64.ofRatio false num den with
  | .infinite _ => .error (.outOfRange "integer division result too large for a float")
  | x => .ok x

namespace Signals

/-- The comment lines per code line, when there is code. -/
def commentRatio? (s : Signals) : Except Fault (Option Binary64) :=
  if s.codeLines = 0 then .ok none else (countRatio s.commentLines s.codeLines).map some

/-- The edges per node; an empty graph counts as one node. -/
def couplingRatio (s : Signals) : Except Fault Binary64 := countRatio s.edges (max s.nodes 1)

/-- Whether there are more edges per node than the weights allow. -/
def tooCoupled (s : Signals) (w : Weights) : Except Fault Bool := do
  return w.couplingThreshold.lt (.real (← s.couplingRatio))

/-- Whether there are fewer comment lines per code line than the weights ask for. -/
def tooFewComments (s : Signals) (w : Weights) : Except Fault Bool := do
  match ← s.commentRatio? with
  | none => return false
  | some r => return Quantity.lt (.real r) w.leastCommentRatio

/-- The number of hotspots above the threshold. -/
def activeHotspots (s : Signals) (w : Weights) : Nat :=
  s.hotspots.countP fun h => w.hotspotThreshold.lt (.int h.commits)

end Signals

/-- The deductions from the score. -/
structure Breakdown where
  size : Quantity := .int 0
  lines : Quantity := .int 0
  hotspots : Quantity := .int 0
  coupling : Quantity := .int 0
  unused : Quantity := .int 0
  security : Quantity := .int 0
  comments : Quantity := .int 0
  deriving DecidableEq, Repr

namespace Breakdown

/-- A deduction that applies when a condition holds. -/
def flat (condition : Bool) (penalty : Quantity) : Quantity :=
  if condition then penalty else .int 0

/-- The weighted sum of the findings. -/
def securityLoad (w : Weights) (findings : List Finding) : Except Fault Quantity := do
  let critical ← Quantity.times (Finding.count .critical findings) w.criticalWeight
  let high ← Quantity.times (Finding.count .high findings) w.highWeight
  let medium ← Quantity.times (Finding.count .medium findings) w.mediumWeight
  (← critical.add high).add medium

/-- The deductions for aggregated inputs, given how the two ratios compare with their thresholds. -/
def ofComparisons (coupled fewComments : Except Fault Bool) (s : Signals) (w : Weights) :
    Except Fault Breakdown := do
  -- the steps that may fail come first, in the order in which they are made
  let active ← Quantity.times (s.activeHotspots w) w.hotspotPenalty
  let coupled ← coupled
  let unused ← Quantity.times s.unused w.unusedPenalty
  let load ← securityLoad w s.findings
  let fewComments ← fewComments
  return {
    size := flat (w.largeProjectFiles.lt (.int s.files)) w.sizePenalty
    lines := flat (w.largeProjectLines.lt (.int s.lines)) w.linesPenalty
    hotspots := active.min w.hotspotCap
    coupling := flat coupled w.couplingPenalty
    unused := unused.min w.unusedCap
    security := load.min w.securityCap
    comments := flat fewComments w.commentPenalty }

/-- The deductions for aggregated inputs. -/
def of (s : Signals) (w : Weights) : Except Fault Breakdown :=
  ofComparisons (s.tooCoupled w) (s.tooFewComments w) s w

/-- The deductions in order, by name. -/
def entries (b : Breakdown) : OrderedMap Quantity :=
  [("size", b.size), ("lines", b.lines), ("hotspots", b.hotspots), ("coupling", b.coupling),
   ("unused_dependencies", b.unused), ("security", b.security), ("comments", b.comments)]

/-- The sum of the deductions, added from left to right. -/
def total (b : Breakdown) : Except Fault Quantity := do
  let t ← b.size.add b.lines
  let t ← t.add b.hotspots
  let t ← t.add b.coupling
  let t ← t.add b.unused
  let t ← t.add b.security
  t.add b.comments

/-- The score that remains, between 0 and 100. -/
def score (b : Breakdown) : Except Fault Int := do
  let rest ← Quantity.sub (.int 100) (← b.total)
  let n ← rest.floor
  return max 0 (min 100 n)

end Breakdown

/-- The health score of aggregated inputs. -/
def healthScore (s : Signals) (w : Weights) : Except Fault Int := do (← Breakdown.of s w).score

end ScriptHealth
