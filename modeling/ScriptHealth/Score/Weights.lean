import ScriptHealth.Number.Quantity

/-!
# Weights of the health score

Thresholds, penalties and caps. Every weight is a number that is not negative, and the least
comment ratio lies between 0 and 1.

## Main definitions

* `Weights.ofEntries` reads weights from named values over the defaults
* `Weights.entries` lists the weights by name, in their fixed order
-/

namespace ScriptHealth

open Number

/-- The weights of the health score. -/
structure Weights where
  /-- Number of files above which `sizePenalty` applies. -/
  largeProjectFiles : Quantity := .int 200
  sizePenalty : Quantity := .int 10
  /-- Number of lines above which `linesPenalty` applies. -/
  largeProjectLines : Quantity := .int 10000
  linesPenalty : Quantity := .int 10
  /-- Number of commits above which a hotspot is active. -/
  hotspotThreshold : Quantity := .int 10
  hotspotPenalty : Quantity := .int 3
  hotspotCap : Quantity := .int 15
  /-- Edges per node above which `couplingPenalty` applies. -/
  couplingThreshold : Quantity := .real (.ofRatio false 3 1)
  couplingPenalty : Quantity := .int 15
  unusedPenalty : Quantity := .int 2
  unusedCap : Quantity := .int 15
  criticalWeight : Quantity := .int 10
  highWeight : Quantity := .int 5
  mediumWeight : Quantity := .int 2
  securityCap : Quantity := .int 30
  /-- Comment lines per code line below which `commentPenalty` applies. -/
  leastCommentRatio : Quantity := .real (.ofRatio false 5 100)
  commentPenalty : Quantity := .int 5
  deriving DecidableEq, Repr, Inhabited

namespace Weights

/-- The weights by name, in their fixed order. -/
def entries (w : Weights) : OrderedMap Quantity :=
  [("large_project_files", w.largeProjectFiles), ("size_penalty", w.sizePenalty),
   ("large_project_loc", w.largeProjectLines), ("loc_penalty", w.linesPenalty),
   ("hotspot_commit_threshold", w.hotspotThreshold), ("hotspot_penalty", w.hotspotPenalty),
   ("hotspot_penalty_cap", w.hotspotCap), ("coupling_ratio_threshold", w.couplingThreshold),
   ("coupling_penalty", w.couplingPenalty), ("unused_dependency_penalty", w.unusedPenalty),
   ("unused_dependency_penalty_cap", w.unusedCap), ("critical_weight", w.criticalWeight),
   ("high_weight", w.highWeight), ("medium_weight", w.mediumWeight),
   ("security_penalty_cap", w.securityCap), ("min_comment_ratio", w.leastCommentRatio),
   ("comment_penalty", w.commentPenalty)]

/-- The names of the weights. -/
def names : List String := (({} : Weights).entries).keys

/-- The weights in one literal form. -/
def literal (w : Weights) : String :=
  "ScoreWeights(" ++ ", ".intercalate (w.entries.map fun e => e.1 ++ "=" ++ e.2.toValue.literal) ++
    ")"

/-- Read one weight: a number that is not negative, or the default when it is not given. -/
def pick (given : OrderedMap Value) (name : String) (default : Quantity) :
    Except Fault Quantity :=
  match given.get? name with
  | none => .ok default
  | some v =>
    match Quantity.ofValue? v with
    | none => .error (.notComparable v)
    | some q => if q.lt (.int 0) then .error (.badValue (name ++ " must be non-negative")) else .ok q

/-- Whether a comment ratio lies between 0 and 1. -/
def isRatio (q : Quantity) : Bool := Quantity.le (.int 0) q && q.le (.int 1)

/-- Read weights from named values over the defaults. -/
def ofEntries (given : OrderedMap Value) : Except Fault Weights := do
  if let some e := given.find? fun e => !names.contains e.1 then
    throw (.unexpectedField "ScoreWeights" e.1)
  let d : Weights := {}
  let largeProjectFiles ← pick given "large_project_files" d.largeProjectFiles
  let sizePenalty ← pick given "size_penalty" d.sizePenalty
  let largeProjectLines ← pick given "large_project_loc" d.largeProjectLines
  let linesPenalty ← pick given "loc_penalty" d.linesPenalty
  let hotspotThreshold ← pick given "hotspot_commit_threshold" d.hotspotThreshold
  let hotspotPenalty ← pick given "hotspot_penalty" d.hotspotPenalty
  let hotspotCap ← pick given "hotspot_penalty_cap" d.hotspotCap
  let couplingThreshold ← pick given "coupling_ratio_threshold" d.couplingThreshold
  let couplingPenalty ← pick given "coupling_penalty" d.couplingPenalty
  let unusedPenalty ← pick given "unused_dependency_penalty" d.unusedPenalty
  let unusedCap ← pick given "unused_dependency_penalty_cap" d.unusedCap
  let criticalWeight ← pick given "critical_weight" d.criticalWeight
  let highWeight ← pick given "high_weight" d.highWeight
  let mediumWeight ← pick given "medium_weight" d.mediumWeight
  let securityCap ← pick given "security_penalty_cap" d.securityCap
  let leastCommentRatio ← pick given "min_comment_ratio" d.leastCommentRatio
  let commentPenalty ← pick given "comment_penalty" d.commentPenalty
  if !isRatio leastCommentRatio then
    throw (.badValue "min_comment_ratio must be between 0.0 and 1.0")
  return { largeProjectFiles, sizePenalty, largeProjectLines, linesPenalty, hotspotThreshold,
           hotspotPenalty, hotspotCap, couplingThreshold, couplingPenalty, unusedPenalty,
           unusedCap, criticalWeight, highWeight, mediumWeight, securityCap, leastCommentRatio,
           commentPenalty }

end Weights

end ScriptHealth
