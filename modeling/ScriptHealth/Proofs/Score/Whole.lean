import ScriptHealth.Proofs.Number.Rounding
import ScriptHealth.Proofs.Score.Monotone

/-!
# Whole weights leave a score

Weights that are whole give whole deductions, and whole deductions can be added up and rounded. Only
two comparisons are made with ratios of counts, and a ratio can be rounded as long as the count that is
divided is not too large.

## Main definitions

* `Breakdown.IsWhole` — deductions that are all whole
* `ratioBound` — a bound of the counts that can be divided

## Main results

* `Breakdown.exists_of_integral` — whole weights give whole deductions
* `exists_healthScore_of_integral` — whole weights leave a score
-/

namespace ScriptHealth

open Number Outcome

namespace Breakdown

/-- Every deduction is whole. -/
structure IsWhole (b : Breakdown) : Prop where
  size : ∃ n, b.size.Whole n
  lines : ∃ n, b.lines.Whole n
  hotspots : ∃ n, b.hotspots.Whole n
  coupling : ∃ n, b.coupling.Whole n
  unused : ∃ n, b.unused.Whole n
  security : ∃ n, b.security.Whole n
  comments : ∃ n, b.comments.Whole n

theorem whole_flat {penalty : Quantity} (h : ∃ n, penalty.Whole n) (condition : Bool) :
    ∃ n, (flat condition penalty).Whole n := by
  cases condition with
  | true => exact h
  | false => exact ⟨0, Quantity.whole_int 0⟩

/-- Whole deductions leave a score. -/
theorem IsWhole.exists_score {b : Breakdown} (h : b.IsWhole) : ∃ n, b.score = .ok n := by
  obtain ⟨⟨a, ha⟩, ⟨c, hc⟩, ⟨d, hd⟩, ⟨e, he⟩, ⟨f, hf⟩, ⟨g, hg⟩, ⟨k, hk⟩⟩ := h
  -- the sum is taken from left to right, and each partial sum is an integer
  have htotal : b.total = .ok (.int (a + c + d + e + f + g + k)) := by
    refine bind_eq_ok.mpr ⟨_, ha.add hc, ?_⟩
    refine bind_eq_ok.mpr ⟨_, (Quantity.whole_int _).add hd, ?_⟩
    refine bind_eq_ok.mpr ⟨_, (Quantity.whole_int _).add he, ?_⟩
    refine bind_eq_ok.mpr ⟨_, (Quantity.whole_int _).add hf, ?_⟩
    refine bind_eq_ok.mpr ⟨_, (Quantity.whole_int _).add hg, ?_⟩
    exact (Quantity.whole_int _).add hk
  exact ⟨_, score_eq htotal (Quantity.whole_int _)⟩

end Breakdown

/-- Counts below this bound have a ratio in the range of fractions. -/
def ratioBound : Nat := 2 ^ 1023

theorem ratioBound_pos : 0 < ratioBound := pow_pos Nat.two_pos _

/-- A ratio of counts that are in range can be rounded. -/
theorem exists_countRatio {num den : Nat} (hnum : num < ratioBound) (hden : 0 < den) :
    ∃ x, countRatio num den = .ok x := by
  have hfinite := Binary64.ofRatio_ne_infinite (k := 1023) hnum (by decide) hden
  obtain ⟨a, c, e, hx⟩ := Binary64.isFinite_ofRatio hfinite
  exact ⟨_, by rw [countRatio, hx]⟩

/-- The comparison of the edges with the nodes succeeds. -/
theorem Signals.exists_tooCoupled {s : Signals} (hedges : s.edges < ratioBound)
    (w : Weights) : ∃ coupled, s.tooCoupled w = .ok coupled := by
  obtain ⟨x, hx⟩ := exists_countRatio hedges (show 0 < max s.nodes 1 by omega)
  exact ⟨_, bind_eq_ok.mpr ⟨x, hx, rfl⟩⟩

/-- The comparison of the comments with the code succeeds. -/
theorem Signals.exists_tooFewComments {s : Signals}
    (hcomments : s.commentLines < ratioBound) (w : Weights) :
    ∃ few, s.tooFewComments w = .ok few := by
  by_cases hcode : s.codeLines = 0
  · refine ⟨false, bind_eq_ok.mpr ⟨none, ?_, rfl⟩⟩
    rw [commentRatio?, if_pos hcode]
  · obtain ⟨x, hx⟩ := exists_countRatio hcomments (Nat.pos_of_ne_zero hcode)
    refine ⟨_, bind_eq_ok.mpr ⟨some x, ?_, rfl⟩⟩
    rw [commentRatio?, if_neg hcode, hx]
    rfl

theorem Weights.Integral.whole {w : Weights} (hw : w.Integral) (name : String) (q : Quantity)
    (he : (name, q) ∈ w.entries) (hname : name ∉ Weights.ratioNames) : ∃ n, q.Whole n :=
  hw (name, q) he hname

namespace Breakdown

/-- Whole weights give the findings a whole weight. -/
theorem exists_securityLoad {w : Weights} (hw : w.Integral) (findings : List Finding) :
    ∃ n, securityLoad w findings = .ok (.int n) := by
  obtain ⟨critical, hcritical⟩ :=
    hw.whole "critical_weight" w.criticalWeight (by simp [Weights.entries]) (by decide)
  obtain ⟨high, hhigh⟩ :=
    hw.whole "high_weight" w.highWeight (by simp [Weights.entries]) (by decide)
  obtain ⟨medium, hmedium⟩ :=
    hw.whole "medium_weight" w.mediumWeight (by simp [Weights.entries]) (by decide)
  refine ⟨Finding.count .critical findings * critical + Finding.count .high findings * high +
    Finding.count .medium findings * medium, ?_⟩
  rw [securityLoad, hcritical.times, hhigh.times, hmedium.times]
  rfl

/-- Whole weights give whole deductions, as long as the two ratios can be rounded. -/
theorem exists_of_integral {s : Signals} {w : Weights} (hw : w.Integral)
    (hedges : s.edges < ratioBound) (hcomments : s.commentLines < ratioBound) :
    ∃ b, Breakdown.of s w = .ok b ∧ b.IsWhole := by
  obtain ⟨coupled, hcoupled⟩ := s.exists_tooCoupled hedges w
  obtain ⟨few, hfew⟩ := s.exists_tooFewComments hcomments w
  obtain ⟨load, hload⟩ := exists_securityLoad hw s.findings
  obtain ⟨_, hhotspot⟩ := hw.whole "hotspot_penalty" w.hotspotPenalty (by simp [Weights.entries])
    (by decide)
  obtain ⟨_, hunused⟩ := hw.whole "unused_dependency_penalty" w.unusedPenalty
    (by simp [Weights.entries]) (by decide)
  obtain ⟨_, hhotspotCap⟩ := hw.whole "hotspot_penalty_cap" w.hotspotCap (by simp [Weights.entries])
    (by decide)
  obtain ⟨_, hunusedCap⟩ := hw.whole "unused_dependency_penalty_cap" w.unusedCap
    (by simp [Weights.entries]) (by decide)
  obtain ⟨_, hsecurityCap⟩ := hw.whole "security_penalty_cap" w.securityCap
    (by simp [Weights.entries]) (by decide)
  refine ⟨_, bind_eq_ok.mpr ⟨_, hhotspot.times _, bind_eq_ok.mpr ⟨_, hcoupled,
    bind_eq_ok.mpr ⟨_, hunused.times _, bind_eq_ok.mpr ⟨_, hload,
      bind_eq_ok.mpr ⟨_, hfew, rfl⟩⟩⟩⟩⟩, ?_⟩
  exact {
    size := whole_flat
      (hw.whole "size_penalty" w.sizePenalty (by simp [Weights.entries]) (by decide)) _
    lines := whole_flat
      (hw.whole "loc_penalty" w.linesPenalty (by simp [Weights.entries]) (by decide)) _
    hotspots := ⟨_, (Quantity.whole_int _).min hhotspotCap⟩
    coupling := whole_flat
      (hw.whole "coupling_penalty" w.couplingPenalty (by simp [Weights.entries]) (by decide)) _
    unused := ⟨_, (Quantity.whole_int _).min hunusedCap⟩
    security := ⟨_, (Quantity.whole_int _).min hsecurityCap⟩
    comments := whole_flat
      (hw.whole "comment_penalty" w.commentPenalty (by simp [Weights.entries]) (by decide)) _
  }

end Breakdown

/-- Whole weights leave a score, as long as the two ratios can be rounded. -/
theorem exists_healthScore_of_integral {s : Signals} {w : Weights} (hw : w.Integral)
    (hedges : s.edges < ratioBound) (hcomments : s.commentLines < ratioBound) :
    ∃ n, healthScore s w = .ok n := by
  obtain ⟨b, hb, hwhole⟩ := Breakdown.exists_of_integral hw hedges hcomments
  obtain ⟨n, hn⟩ := hwhole.exists_score
  exact ⟨n, bind_eq_ok.mpr ⟨b, hb, hn⟩⟩

end ScriptHealth
