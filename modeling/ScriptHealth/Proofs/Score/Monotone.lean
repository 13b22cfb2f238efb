import Mathlib.Data.List.Perm.Subperm
import Mathlib.Tactic.GCongr
import ScriptHealth.Proofs.Score.Weights
import ScriptHealth.Score.Basic

/-!
# Worse signals never raise the score

The score is followed through two runs side by side, one on signals that are at least as bad as
those of the other. With whole weights every step of both runs has a result, every deduction of the
worse signals is at least that of the others, and so are their sums; taking the sum from 100,
rounding down and clamping turn the order around.

The two ratios enter only through their comparison with a threshold. Exact ratios can be compared
with any rational thresholds. The ratios of a run are rounded, and rounding keeps the order, so the
same holds of a run wherever the ratios are not too large to be rounded.

## Main definitions

* `Signals.Worse` — signals that are at least as bad in every respect
* `exactHealthScore` — the score with exact ratios

## Main results

* `Breakdown.ofComparisons_atMost` — the deductions of worse signals are at least as large
* `Breakdown.score_anti` — larger deductions never leave a higher score
* `healthScore_le_of_worse` — worse signals never raise the score
-/

namespace ScriptHealth

open Number Outcome

/-! ### Worse signals -/

/-- Signals that are at least as bad in every respect. Hotspots may be added and gain commits,
findings may be added, and both may be listed in another order. -/
structure Signals.Worse (s s' : Signals) : Prop where
  files : s.files ≤ s'.files
  lines : s.lines ≤ s'.lines
  hotspots : ∃ kept, List.Forall₂ (fun h k : Hotspot => h.commits ≤ k.commits) s.hotspots kept ∧
    kept.Subperm s'.hotspots
  nodes : s'.nodes = s.nodes
  edges : s.edges ≤ s'.edges
  unused : s.unused ≤ s'.unused
  findings : s.findings.Subperm s'.findings
  codeLines : s.codeLines ≤ s'.codeLines
  commentLines : s'.commentLines ≤ s.commentLines

namespace Signals

/-- Whether there are more than `threshold` edges per node, without rounding. -/
def exceeds (threshold : ℚ) (s : Signals) : Bool :=
  threshold < (s.edges : ℚ) / (max s.nodes 1 : Nat)

/-- Whether there is code with less than `threshold` comment lines per code line, without
rounding. -/
def lacks (threshold : ℚ) (s : Signals) : Bool :=
  s.codeLines ≠ 0 ∧ (s.commentLines : ℚ) / s.codeLines < threshold

namespace Worse

variable {s s' : Signals}

/-- Hotspots that gained commits are active if they were active before. -/
theorem countP_commits_le {p : Nat → Bool} (hp : ∀ m n, m ≤ n → p m = true → p n = true)
    {hotspots kept : List Hotspot}
    (h : List.Forall₂ (fun h k : Hotspot => h.commits ≤ k.commits) hotspots kept) :
    hotspots.countP (fun h => p h.commits) ≤ kept.countP (fun h => p h.commits) := by
  induction h with
  | nil => exact le_rfl
  | @cons a b as bs hab _ ih =>
    rw [List.countP_cons, List.countP_cons]
    -- the first hotspot counts on the left only if it counts on the right
    have himp := hp a.commits b.commits hab
    split_ifs with ha hb
    · omega
    · exact absurd (himp ha) hb
    · omega
    · omega

theorem activeHotspots_le (h : s.Worse s') (w : Weights) :
    s.activeHotspots w ≤ s'.activeHotspots w := by
  obtain ⟨kept, hraised, hadded⟩ := h.hotspots
  calc s.activeHotspots w
      ≤ kept.countP (fun k => w.hotspotThreshold.lt (.int k.commits)) :=
        countP_commits_le (p := fun n => w.hotspotThreshold.lt (.int n))
          (fun _ _ hmn => Quantity.lt_int_mono (Int.ofNat_le.mpr hmn)) hraised
    _ ≤ s'.activeHotspots w := hadded.countP_le _

theorem count_le (h : s.Worse s') (severity : Severity) :
    Finding.count severity s.findings ≤ Finding.count severity s'.findings :=
  h.findings.countP_le _

/-- The comment lines per code line, when there is code. -/
theorem commentQuotient_le (h : s.Worse s') (hcode : s.codeLines ≠ 0) :
    (s'.commentLines : ℚ) / s'.codeLines ≤ s.commentLines / s.codeLines := by
  have hcode' : (0 : ℚ) < s.codeLines := by positivity
  have hcomments := h.commentLines
  have hcodes := h.codeLines
  gcongr

theorem couplingQuotient_le (h : s.Worse s') :
    (s.edges : ℚ) / (max s.nodes 1 : Nat) ≤ s'.edges / (max s'.nodes 1 : Nat) := by
  rw [h.nodes]
  have hedges := h.edges
  gcongr

theorem exceeds_imp (h : s.Worse s') {t : ℚ} (hs : s.exceeds t = true) : s'.exceeds t = true := by
  simp only [exceeds, decide_eq_true_eq] at hs ⊢
  exact hs.trans_le h.couplingQuotient_le

theorem lacks_imp (h : s.Worse s') {u : ℚ} (hs : s.lacks u = true) : s'.lacks u = true := by
  simp only [lacks, decide_eq_true_eq] at hs ⊢
  -- code that was there is still there
  obtain ⟨hcode, hratio⟩ := hs
  have hcodes := h.codeLines
  exact ⟨by omega, (h.commentQuotient_le hcode).trans_lt hratio⟩

end Worse

end Signals

/-! ### Rounded ratios -/

/-- A quotient that is not too large is the rounded one, and finite. -/
theorem countRatio_eq_ok {num den : Nat} {x : Binary64} (h : countRatio num den = .ok x) :
    x = .ofRatio false num den ∧ Binary64.ofRatio false num den ≠ .infinite false := by
  unfold countRatio at h
  split at h
  · cases h
  · rename_i hfinite
    cases h
    exact ⟨rfl, hfinite false⟩

/-- A greater quotient is rounded to a number of at least the same value. -/
theorem value_countRatio_mono {num den num' den' : Nat} {x y : Binary64} (hden : 0 < den)
    (hden' : 0 < den') (h : (num : ℚ) / den ≤ num' / den') (hx : countRatio num den = .ok x)
    (hy : countRatio num' den' = .ok y) : x.IsFinite ∧ y.IsFinite ∧ x.value ≤ y.value := by
  obtain ⟨rfl, hxFinite⟩ := countRatio_eq_ok hx
  obtain ⟨rfl, hyFinite⟩ := countRatio_eq_ok hy
  exact ⟨Binary64.isFinite_ofRatio hxFinite, Binary64.isFinite_ofRatio hyFinite,
    Binary64.value_ofRatio_mono hden hden' h hxFinite hyFinite⟩

/-- When there is code, the comment ratio is that of the two counts. -/
theorem Signals.commentRatio?_eq_ok {s : Signals} (hcode : s.codeLines ≠ 0) {r : Option Binary64}
    (h : s.commentRatio? = .ok r) :
    ∃ x, r = some x ∧ countRatio s.commentLines s.codeLines = .ok x := by
  rw [commentRatio?, if_neg hcode] at h
  cases hx : countRatio s.commentLines s.codeLines with
  | error e =>
    rw [hx] at h
    cases h
  | ok x =>
    rw [hx] at h
    cases h
    exact ⟨x, rfl, rfl⟩

namespace Signals.Worse

variable {s s' : Signals} {w : Weights} {b b' : Bool}

theorem tooCoupled_imp (h : s.Worse s') (hs : s.tooCoupled w = .ok b)
    (hs' : s'.tooCoupled w = .ok b') (hb : b = true) : b' = true := by
  obtain ⟨x, hx, hlt⟩ := bind_eq_ok.mp hs
  obtain ⟨y, hy, hlt'⟩ := bind_eq_ok.mp hs'
  cases hlt
  cases hlt'
  obtain ⟨hxFinite, hyFinite, hle⟩ :=
    value_countRatio_mono (by positivity) (by positivity) h.couplingQuotient_le hx hy
  exact Quantity.lt_real_mono hxFinite hyFinite hle hb

theorem tooFewComments_imp (h : s.Worse s') (hs : s.tooFewComments w = .ok b)
    (hs' : s'.tooFewComments w = .ok b') (hb : b = true) : b' = true := by
  obtain ⟨r, hr, hlt⟩ := bind_eq_ok.mp hs
  obtain ⟨r', hr', hlt'⟩ := bind_eq_ok.mp hs'
  -- without code there is no ratio, and nothing is missing
  have hcode : s.codeLines ≠ 0 := by
    intro hzero
    rw [commentRatio?, if_pos hzero] at hr
    cases hr
    cases hlt
    cases hb
  have hcode' : s'.codeLines ≠ 0 := by
    have hcodes := h.codeLines
    omega
  obtain ⟨x, rfl, hx⟩ := commentRatio?_eq_ok hcode hr
  obtain ⟨y, rfl, hy⟩ := commentRatio?_eq_ok hcode' hr'
  cases hlt
  cases hlt'
  obtain ⟨hyFinite, hxFinite, hle⟩ :=
    value_countRatio_mono (by positivity) (by positivity) (h.commentQuotient_le hcode) hy hx
  exact Quantity.real_lt_anti hxFinite hyFinite hle hb

end Signals.Worse

/-! ### Deductions -/

namespace Breakdown

/-- Deductions that are whole and at least as large, one by one. -/
structure AtMost (b b' : Breakdown) : Prop where
  size : b.size.AtMost b'.size
  lines : b.lines.AtMost b'.lines
  hotspots : b.hotspots.AtMost b'.hotspots
  coupling : b.coupling.AtMost b'.coupling
  unused : b.unused.AtMost b'.unused
  security : b.security.AtMost b'.security
  comments : b.comments.AtMost b'.comments

theorem flat_atMost {condition condition' : Bool} {penalty : Quantity} (hpenalty : penalty.IsCount)
    (h : condition = true → condition' = true) :
    (flat condition penalty).AtMost (flat condition' penalty) := by
  cases condition with
  | true =>
    rw [h rfl]
    exact hpenalty.atMost_self
  | false =>
    cases condition' with
    | true => exact hpenalty.zero_atMost
    | false => exact ⟨0, 0, Quantity.whole_int 0, Quantity.whole_int 0, le_rfl⟩

/-- A flat deduction above a threshold. -/
theorem flat_lt_atMost (threshold : Quantity) {penalty : Quantity} (hpenalty : penalty.IsCount)
    {m n : Nat} (h : m ≤ n) :
    (flat (threshold.lt (.int m)) penalty).AtMost (flat (threshold.lt (.int n)) penalty) :=
  flat_atMost hpenalty (Quantity.lt_int_mono (Int.ofNat_le.mpr h))

section Worse

variable {s s' : Signals} {w : Weights}

/-- The weighted sum of the findings. -/
theorem securityLoad_atMost (h : s.Worse s') (hw : w.Counts) :
    Both Quantity.AtMost (securityLoad w s.findings) (securityLoad w s'.findings) := by
  refine (hw.criticalWeight.times_atMost (h.count_le _)).bind fun critical critical' hcritical => ?_
  refine (hw.highWeight.times_atMost (h.count_le _)).bind fun high high' hhigh => ?_
  refine (hw.mediumWeight.times_atMost (h.count_le _)).bind fun medium medium' hmedium => ?_
  exact (hcritical.add hhigh).bind fun _ _ hsum => hsum.add hmedium

/-- The deductions of worse signals are at least as large. -/
theorem ofComparisons_atMost (h : s.Worse s') (hw : w.Counts)
    {coupled coupled' fewComments fewComments' : Bool} (hcoupled : coupled = true → coupled' = true)
    (hfew : fewComments = true → fewComments' = true) :
    Both AtMost (ofComparisons (.ok coupled) (.ok fewComments) s w)
      (ofComparisons (.ok coupled') (.ok fewComments') s' w) := by
  -- both runs take the same steps, and each of them keeps the order
  have hactiveCount := h.activeHotspots_le w
  refine (hw.hotspotPenalty.times_atMost hactiveCount).bind fun active active' hactive => ?_
  refine (hw.unusedPenalty.times_atMost h.unused).bind fun unused unused' hunused => ?_
  refine (securityLoad_atMost h hw).bind fun load load' hload => ?_
  exact .ok {
    size := flat_lt_atMost w.largeProjectFiles hw.sizePenalty h.files
    lines := flat_lt_atMost w.largeProjectLines hw.linesPenalty h.lines
    hotspots := hactive.min hw.hotspotCap.atMost_self
    coupling := flat_atMost hw.couplingPenalty hcoupled
    unused := hunused.min hw.unusedCap.atMost_self
    security := hload.min hw.securityCap.atMost_self
    comments := flat_atMost hw.commentPenalty hfew
  }

end Worse

/-- Larger deductions have a larger sum. -/
theorem AtMost.total {b b' : Breakdown} (h : b.AtMost b') :
    Both Quantity.AtMost b.total b'.total := by
  refine (h.size.add h.lines).bind fun _ _ hsum => ?_
  refine (hsum.add h.hotspots).bind fun _ _ hsum => ?_
  refine (hsum.add h.coupling).bind fun _ _ hsum => ?_
  refine (hsum.add h.unused).bind fun _ _ hsum => ?_
  refine (hsum.add h.security).bind fun _ _ hsum => ?_
  exact hsum.add h.comments

/-- The score that a whole sum of deductions leaves. -/
theorem score_eq {b : Breakdown} {total : Quantity} {n : Int} (htotal : b.total = .ok total)
    (hn : total.Whole n) : b.score = .ok (max 0 (min 100 (100 - n))) := by
  refine bind_eq_ok.mpr ⟨total, htotal, ?_⟩
  refine bind_eq_ok.mpr ⟨.int (100 - n), (Quantity.whole_int 100).sub hn, ?_⟩
  exact bind_eq_ok.mpr ⟨100 - n, (Quantity.whole_int (100 - n)).floor, rfl⟩

/-- Larger deductions never leave a higher score. -/
theorem score_anti {b b' : Breakdown} (h : b.AtMost b') :
    Both (fun n n' => n' ≤ n) b.score b'.score := by
  obtain ⟨total, total', htotal, htotal', n, n', hn, hn', hle⟩ := h.total
  rw [score_eq htotal hn, score_eq htotal' hn']
  exact .ok (by omega)

end Breakdown

/-! ### Scores -/

/-- The score with exact ratios, compared with rational thresholds. -/
def exactHealthScore (couplingThreshold leastCommentRatio : ℚ) (s : Signals) (w : Weights) :
    Except Fault Int := do
  (← Breakdown.ofComparisons (.ok (s.exceeds couplingThreshold)) (.ok (s.lacks leastCommentRatio))
    s w).score

/-- The comparisons of a run that has a score. -/
theorem comparisons_of_healthScore {s : Signals} {w : Weights} {n : Int}
    (h : healthScore s w = .ok n) :
    ∃ coupled fewComments, s.tooCoupled w = .ok coupled ∧ s.tooFewComments w = .ok fewComments ∧
      (Breakdown.ofComparisons (.ok coupled) (.ok fewComments) s w >>= Breakdown.score) = .ok n := by
  -- the run is taken apart and put together again with the outcomes in place
  obtain ⟨b, hb, hscore⟩ := bind_eq_ok.mp h
  obtain ⟨active, hactive, hb⟩ := bind_eq_ok.mp hb
  obtain ⟨coupled, hcoupled, hb⟩ := bind_eq_ok.mp hb
  obtain ⟨unused, hunused, hb⟩ := bind_eq_ok.mp hb
  obtain ⟨load, hload, hb⟩ := bind_eq_ok.mp hb
  obtain ⟨fewComments, hfew, hb⟩ := bind_eq_ok.mp hb
  refine ⟨coupled, fewComments, hcoupled, hfew, bind_eq_ok.mpr ⟨b, ?_, hscore⟩⟩
  refine bind_eq_ok.mpr ⟨active, hactive, bind_eq_ok.mpr ⟨coupled, rfl, ?_⟩⟩
  refine bind_eq_ok.mpr ⟨unused, hunused, bind_eq_ok.mpr ⟨load, hload, ?_⟩⟩
  exact bind_eq_ok.mpr ⟨fewComments, rfl, hb⟩

/-- Signals that are at least as bad in every respect never have a higher score, for all accepted
weights that are whole. With exact ratios both scores exist, whatever rational thresholds the ratios
are compared with; with rounded ratios the same holds of every two runs that have a score. -/
theorem healthScore_le_of_worse {given : OrderedMap Value} {w : Weights} {s s' : Signals}
    (haccepted : Weights.ofEntries given = .ok w) (hw : w.Integral) (h : s.Worse s') :
    (∀ couplingThreshold leastCommentRatio : ℚ, ∃ n n',
      exactHealthScore couplingThreshold leastCommentRatio s w = .ok n ∧
        exactHealthScore couplingThreshold leastCommentRatio s' w = .ok n' ∧ n' ≤ n) ∧
    ∀ n n', healthScore s w = .ok n → healthScore s' w = .ok n' → n' ≤ n := by
  have hcounts := Weights.counts_of_ofEntries haccepted hw
  constructor
  · intro t u
    exact (Breakdown.ofComparisons_atMost h hcounts h.exceeds_imp h.lacks_imp).bind
      fun _ _ => Breakdown.score_anti
  · intro n n' hn hn'
    -- runs that have a score have made both comparisons
    obtain ⟨coupled, few, hcoupled, hfew, hscore⟩ := comparisons_of_healthScore hn
    obtain ⟨coupled', few', hcoupled', hfew', hscore'⟩ := comparisons_of_healthScore hn'
    obtain ⟨m, m', hm, hm', hle⟩ :=
      (Breakdown.ofComparisons_atMost h hcounts (h.tooCoupled_imp hcoupled hcoupled')
        (h.tooFewComments_imp hfew hfew')).bind fun _ _ => Breakdown.score_anti
    cases hscore.symm.trans hm
    cases hscore'.symm.trans hm'
    exact hle

/-- The signals of a small project in order. -/
def tidySignals : Signals :=
  { files := 10, lines := 500, codeLines := 400, commentLines := 100
    hotspots := [⟨"a.ts", 5⟩], nodes := 10, edges := 12, unused := 1 }

/-- The signals of the same project after every one of them got worse. -/
def neglectedSignals : Signals :=
  { files := 300, lines := 20000, codeLines := 15000, commentLines := 90
    hotspots := [⟨"b.ts", 40⟩, ⟨"a.ts", 11⟩], nodes := 10, edges := 31, unused := 3
    findings := [{ name := "eval", severity := .critical, description := .null
                   source := .codeScan, category := "injection" }] }

/-- Both projects under the default weights. -/
theorem healthScore_le_of_worse_neglected :
    healthScore tidySignals {} = .ok 98 ∧ healthScore neglectedSignals {} = .ok 38 ∧
      ((∀ t u : ℚ, ∃ n n', exactHealthScore t u tidySignals {} = .ok n ∧
          exactHealthScore t u neglectedSignals {} = .ok n' ∧ n' ≤ n) ∧
        ∀ n n', healthScore tidySignals {} = .ok n → healthScore neglectedSignals {} = .ok n' →
          n' ≤ n) := by
  have haccepted : Weights.ofEntries [] = .ok {} := rfl
  have hw : ({} : Weights).Integral := by
    simp [Weights.Integral, Weights.entries, Weights.ratioNames, Quantity.Whole, Quantity.exact]
  have hworse : tidySignals.Worse neglectedSignals := {
    files := by decide
    lines := by decide
    hotspots := ⟨[⟨"a.ts", 11⟩], by simp [tidySignals],
      (List.sublist_cons_self _ _).subperm⟩
    nodes := rfl
    edges := by decide
    unused := by decide
    findings := List.nil_subperm
    codeLines := by decide
    commentLines := by decide
  }
  exact ⟨rfl, rfl, healthScore_le_of_worse haccepted hw hworse⟩

end ScriptHealth
