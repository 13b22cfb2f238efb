import ScriptHealth.Proofs.Number.Quantity
import ScriptHealth.Score.Weights

/-!
# Accepted weights

Weights are accepted only if none of them is found negative, whether it was given or left at its
default. Accepted weights that are whole are therefore counts.

## Main definitions

* `Weights.ratioNames` — the weights that are compared with a ratio
* `Weights.Integral`, `Weights.Counts` — weights that are whole, or counts, except for those
  compared with a ratio

## Main results

* `Weights.picked_of_ofEntries` — every accepted weight is picked under its own name
* `Weights.not_negative_of_ofEntries` — no accepted weight is negative
* `Weights.counts_of_ofEntries` — accepted weights that are whole are counts
-/

namespace ScriptHealth.Weights

open Outcome

/-- The names of the weights that are compared with a ratio. -/
def ratioNames : List String := ["coupling_ratio_threshold", "min_comment_ratio"]

/-- Weights that are whole, except for those compared with a ratio. -/
def Integral (w : Weights) : Prop := ∀ e ∈ w.entries, e.1 ∉ ratioNames → ∃ n, e.2.Whole n

theorem integral_default : ({} : Weights).Integral := by
  simp [Integral, entries, ratioNames, Quantity.Whole, Quantity.exact]

/-- Weights that are counts, except for those compared with a ratio. -/
structure Counts (w : Weights) : Prop where
  largeProjectFiles : w.largeProjectFiles.IsCount
  sizePenalty : w.sizePenalty.IsCount
  largeProjectLines : w.largeProjectLines.IsCount
  linesPenalty : w.linesPenalty.IsCount
  hotspotThreshold : w.hotspotThreshold.IsCount
  hotspotPenalty : w.hotspotPenalty.IsCount
  hotspotCap : w.hotspotCap.IsCount
  couplingPenalty : w.couplingPenalty.IsCount
  unusedPenalty : w.unusedPenalty.IsCount
  unusedCap : w.unusedCap.IsCount
  criticalWeight : w.criticalWeight.IsCount
  highWeight : w.highWeight.IsCount
  mediumWeight : w.mediumWeight.IsCount
  securityCap : w.securityCap.IsCount
  commentPenalty : w.commentPenalty.IsCount

/-- A picked weight is not negative if its default is not. -/
theorem pick_not_negative {given : OrderedMap Value} {name : String} {default q : Quantity}
    (hdefault : default.lt (.int 0) = false) (h : pick given name default = .ok q) :
    q.lt (.int 0) = false := by
  unfold pick at h
  split at h
  · cases h
    exact hdefault
  · split at h
    · exact absurd h (by simp)
    · split at h
      · exact absurd h (by simp)
      · rename_i hlt
        cases h
        exact Bool.eq_false_iff.mpr hlt

/-- The accepted weights are picked one by one, each under its own name and over its own default. -/
theorem forall₂_picked_of_ofEntries {given : OrderedMap Value} {w : Weights}
    (h : ofEntries given = .ok w) :
    List.Forall₂ (fun d e => d.1 = e.1 ∧ pick given d.1 d.2 = .ok e.2) ({} : Weights).entries
      w.entries := by
  unfold ofEntries at h
  split at h
  · cases h
  · -- every weight is picked in turn, and the last check changes none of them
    obtain ⟨_, hlargeProjectFiles, h⟩ := bind_eq_ok.mp h
    obtain ⟨_, hsizePenalty, h⟩ := bind_eq_ok.mp h
    obtain ⟨_, hlargeProjectLines, h⟩ := bind_eq_ok.mp h
    obtain ⟨_, hlinesPenalty, h⟩ := bind_eq_ok.mp h
    obtain ⟨_, hhotspotThreshold, h⟩ := bind_eq_ok.mp h
    obtain ⟨_, hhotspotPenalty, h⟩ := bind_eq_ok.mp h
    obtain ⟨_, hhotspotCap, h⟩ := bind_eq_ok.mp h
    obtain ⟨_, hcouplingThreshold, h⟩ := bind_eq_ok.mp h
    obtain ⟨_, hcouplingPenalty, h⟩ := bind_eq_ok.mp h
    obtain ⟨_, hunusedPenalty, h⟩ := bind_eq_ok.mp h
    obtain ⟨_, hunusedCap, h⟩ := bind_eq_ok.mp h
    obtain ⟨_, hcriticalWeight, h⟩ := bind_eq_ok.mp h
    obtain ⟨_, hhighWeight, h⟩ := bind_eq_ok.mp h
    obtain ⟨_, hmediumWeight, h⟩ := bind_eq_ok.mp h
    obtain ⟨_, hsecurityCap, h⟩ := bind_eq_ok.mp h
    obtain ⟨_, hleastCommentRatio, h⟩ := bind_eq_ok.mp h
    obtain ⟨_, hcommentPenalty, h⟩ := bind_eq_ok.mp h
    obtain ⟨-, h⟩ := check_eq_ok.mp h
    cases h
    simp only [entries, List.forall₂_cons, List.forall₂_nil_left_iff, true_and, and_true]
    exact ⟨hlargeProjectFiles, hsizePenalty, hlargeProjectLines, hlinesPenalty,
      hhotspotThreshold, hhotspotPenalty, hhotspotCap, hcouplingThreshold, hcouplingPenalty,
      hunusedPenalty, hunusedCap, hcriticalWeight, hhighWeight, hmediumWeight, hsecurityCap,
      hleastCommentRatio, hcommentPenalty⟩

/-- Every accepted weight is picked under its own name, over its own default. -/
theorem picked_of_ofEntries {given : OrderedMap Value} {w : Weights}
    (h : ofEntries given = .ok w) :
    ∀ e ∈ w.entries, ∃ d ∈ ({} : Weights).entries, pick given d.1 d.2 = .ok e.2 := by
  intro e he
  obtain ⟨d, hd, -, hpick⟩ := exists_of_mem_right (forall₂_picked_of_ofEntries h) he
  exact ⟨d, hd, hpick⟩

/-- No accepted weight is negative. -/
theorem not_negative_of_ofEntries {given : OrderedMap Value} {w : Weights}
    (h : ofEntries given = .ok w) : ∀ e ∈ w.entries, e.2.lt (.int 0) = false := by
  have hdefaults : ∀ d ∈ ({} : Weights).entries, d.2.lt (.int 0) = false := by decide
  intro e he
  obtain ⟨d, hd, hpick⟩ := picked_of_ofEntries h e he
  exact pick_not_negative (hdefaults d hd) hpick

/-- Accepted weights that are whole are counts. -/
theorem counts_of_ofEntries {given : OrderedMap Value} {w : Weights}
    (h : ofEntries given = .ok w) (hw : w.Integral) : w.Counts := by
  have count (name : String) {q : Quantity} (he : (name, q) ∈ w.entries)
      (hname : name ∉ ratioNames) : q.IsCount := by
    obtain ⟨n, hn⟩ := hw _ he hname
    exact hn.isCount (not_negative_of_ofEntries h _ he)
  exact {
    largeProjectFiles := count "large_project_files" (by simp [entries]) (by decide)
    sizePenalty := count "size_penalty" (by simp [entries]) (by decide)
    largeProjectLines := count "large_project_loc" (by simp [entries]) (by decide)
    linesPenalty := count "loc_penalty" (by simp [entries]) (by decide)
    hotspotThreshold := count "hotspot_commit_threshold" (by simp [entries]) (by decide)
    hotspotPenalty := count "hotspot_penalty" (by simp [entries]) (by decide)
    hotspotCap := count "hotspot_penalty_cap" (by simp [entries]) (by decide)
    couplingPenalty := count "coupling_penalty" (by simp [entries]) (by decide)
    unusedPenalty := count "unused_dependency_penalty" (by simp [entries]) (by decide)
    unusedCap := count "unused_dependency_penalty_cap" (by simp [entries]) (by decide)
    criticalWeight := count "critical_weight" (by simp [entries]) (by decide)
    highWeight := count "high_weight" (by simp [entries]) (by decide)
    mediumWeight := count "medium_weight" (by simp [entries]) (by decide)
    securityCap := count "security_penalty_cap" (by simp [entries]) (by decide)
    commentPenalty := count "comment_penalty" (by simp [entries]) (by decide)
  }

end ScriptHealth.Weights
