import ScriptHealth.Proofs.Number.Range
import ScriptHealth.Proofs.Report.Order

/-!
# Which weights leave a score

A score is clamped, so a score that exists lies between 0 and 100. Weights are accepted when they
are not negative, and that lets pass the infinite value and what is no number at all. Such a weight
does no harm where it is not in force, and a cap brings the infinite value down; but it leaves no
score where it gets into the sum of the deductions. Nor is there one if the sum itself is too large
for a fraction.

For weights and counts of moderate size the weights that leave a score are told by their kinds.

## Main definitions

* `Weights.Moderate`, `Signals.Moderate` — far from the greatest fraction
* `Weights.Usable` — no weight in force spoils the sum

## Main results

* `Breakdown.Has.exists_score_iff` — deductions leave a score if all of them are numbers
* `healthScore_exists_iff_usable` — scores are in range, and which weights leave one
* `healthScore_fails_for_accepted_weights` — accepted weights that leave none
-/

namespace ScriptHealth

open Number Outcome

/-- Counts and weights of at most two to this power are moderate. -/
def moderateExponent : Nat := 500

/-- Weights of which those that are numbers are moderate. -/
def Weights.Moderate (w : Weights) : Prop := ∀ e ∈ w.entries, e.2.toRat ≤ 2 ^ moderateExponent

/-- Signals of which those that are multiplied or divided are moderate. -/
structure Signals.Moderate (s : Signals) : Prop where
  edges : s.edges ≤ 2 ^ moderateExponent
  commentLines : s.commentLines ≤ 2 ^ moderateExponent
  hotspots : s.hotspots.length ≤ 2 ^ moderateExponent
  unused : s.unused ≤ 2 ^ moderateExponent
  findings : s.findings.length ≤ 2 ^ moderateExponent

/-- Units that can be deducted under a cap: none of them is other than a number, except that there
may be some of the infinite value, if the cap is a number. -/
def Payable (units : List (Nat × Quantity)) (cap : Quantity) : Prop :=
  (∀ u ∈ units, u.2.kind = .number ∨ (u.2.kind = .infinite ∧ 0 < u.1)) ∧
    ((∀ u ∈ units, u.2.kind = .number) ∨ cap.kind = .number)

/-- Weights of which none that is in force spoils the sum of the deductions. -/
structure Weights.Usable (w : Weights) (s : Signals) : Prop where
  size : w.largeProjectFiles.lt (.int s.files) = true → w.sizePenalty.kind = .number
  lines : w.largeProjectLines.lt (.int s.lines) = true → w.linesPenalty.kind = .number
  hotspots : Payable [(s.activeHotspots w, w.hotspotPenalty)] w.hotspotCap
  coupling : s.tooCoupled w = .ok true → w.couplingPenalty.kind = .number
  unused : Payable [(s.unused, w.unusedPenalty)] w.unusedCap
  security : Payable [(Finding.count .critical s.findings, w.criticalWeight),
    (Finding.count .high s.findings, w.highWeight),
    (Finding.count .medium s.findings, w.mediumWeight)] w.securityCap
  comments : s.tooFewComments w = .ok true → w.commentPenalty.kind = .number

/-! ### Kinds of deductions -/

/-- The kind of a flat deduction. -/
def flatKind (condition : Bool) (κ : Kind) : Kind := if condition then κ else .number

theorem flatKind_eq_number_iff {condition : Bool} {κ : Kind} :
    flatKind condition κ = .number ↔ (condition = true → κ = .number) := by
  cases condition <;> simp [flatKind]

theorem has_flat {k : Nat} {κ : Kind} {penalty : Quantity} (h : penalty.Has k κ)
    (condition : Bool) :
    (Breakdown.flat condition penalty).Has k (flatKind condition κ) := by
  cases condition with
  | true => exact h
  | false => exact ⟨rfl, le_rfl, by positivity⟩

/-- The kind of a sum of units. -/
def loadKind (units : List (Nat × Quantity)) : Kind :=
  units.foldr (fun u κ => (u.2.kind.times u.1).add κ) .number

theorem loadKind_eq_number_iff {units : List (Nat × Quantity)} :
    loadKind units = .number ↔ ∀ u ∈ units, u.2.kind = .number := by
  induction units with
  | nil => simp [loadKind]
  | cons u units ih =>
    have hunit : u.2.kind.times u.1 = .number ↔ u.2.kind = .number := Kind.times_eq_number_iff
    rw [List.forall_mem_cons, ← ih, ← hunit, ← Kind.add_eq_number_iff]
    rfl

theorem loadKind_ne_nan_iff {units : List (Nat × Quantity)} :
    loadKind units ≠ .nan ↔
      ∀ u ∈ units, u.2.kind = .number ∨ (u.2.kind = .infinite ∧ 0 < u.1) := by
  induction units with
  | nil => simp [loadKind]
  | cons u units ih =>
    rw [List.forall_mem_cons, ← ih, ← Kind.times_ne_nan_iff, ← not_or, ← Kind.add_eq_nan_iff]
    rfl

/-- Units can be deducted if their sum under the cap is a number. -/
theorem payable_iff {units : List (Nat × Quantity)} {cap : Quantity} :
    Payable units cap ↔ (loadKind units).min cap.kind = .number := by
  rw [Kind.min_eq_number_iff, loadKind_ne_nan_iff, loadKind_eq_number_iff, Payable]

/-- The sum of the units of one kind. -/
theorem loadKind_singleton (u : Nat × Quantity) : loadKind [u] = u.2.kind.times u.1 :=
  Kind.add_number _

/-! ### The sum of the deductions -/

namespace Breakdown

/-- Deductions of the given kinds, one by one; those that are numbers are at most `2 ^ k`. -/
def Has (k : Nat) (kinds : List Kind) (b : Breakdown) : Prop :=
  List.Forall₂ (fun κ e => e.2.Has k κ) kinds b.entries

variable {k : Nat} {kinds : List Kind} {b : Breakdown}

/-- A partial sum and the deduction that is added next. -/
theorem has_add_next {j : Nat} {κ κ' : Kind} {t q : Quantity} (ht : t.Has (k + j) κ)
    (hq : q.Has k κ') (hk : k + j < Binary64.boundLimit) :
    ∃ c, t.add q = .ok c ∧ c.Has (k + (j + 1)) (κ.add κ') :=
  ht.add (hq.mono (Nat.le_add_right k j)) hk

/-- The kind of the sum is the sum of the kinds. -/
theorem Has.exists_total (h : b.Has k kinds) (hk : k + 6 ≤ Binary64.boundLimit) :
    ∃ t, b.total = .ok t ∧ t.Has (k + 6) (kinds.foldl Kind.add .number) := by
  unfold Has entries at h
  simp only [List.forall₂_cons_right_iff, List.forall₂_nil_right_iff] at h
  obtain ⟨size, _, hsize, ⟨lines, _, hlines, ⟨hotspots, _, hhotspots, ⟨coupling, _, hcoupling,
    ⟨unused, _, hunused, ⟨security, _, hsecurity, ⟨comments, _, hcomments, rfl, rfl⟩, rfl⟩, rfl⟩,
    rfl⟩, rfl⟩, rfl⟩, rfl⟩ := h
  -- the sum is taken from left to right, and every step may double the bound
  obtain ⟨t₁, h₁, ht₁⟩ := has_add_next (j := 0) hsize hlines (by omega)
  obtain ⟨t₂, h₂, ht₂⟩ := has_add_next ht₁ hhotspots (by omega)
  obtain ⟨t₃, h₃, ht₃⟩ := has_add_next ht₂ hcoupling (by omega)
  obtain ⟨t₄, h₄, ht₄⟩ := has_add_next ht₃ hunused (by omega)
  obtain ⟨t₅, h₅, ht₅⟩ := has_add_next ht₄ hsecurity (by omega)
  obtain ⟨t₆, h₆, ht₆⟩ := has_add_next ht₅ hcomments (by omega)
  refine ⟨t₆, ?_, ?_⟩
  · rw [total, h₁, ok_bind, h₂, ok_bind, h₃, ok_bind, h₄, ok_bind, h₅, ok_bind, h₆]
  · rw [List.foldl_cons, Kind.number_add]
    exact ht₆

theorem foldl_add_eq_number_iff {κ : Kind} :
    kinds.foldl Kind.add κ = .number ↔ κ = .number ∧ ∀ κ' ∈ kinds, κ' = .number := by
  induction kinds generalizing κ with
  | nil => simp
  | cons κ' kinds ih =>
    rw [List.foldl_cons, ih, Kind.add_eq_number_iff, List.forall_mem_cons, and_assoc]

/-- Deductions leave a score if all of them are numbers. -/
theorem Has.exists_score_iff (h : b.Has k kinds) (hpos : 0 < k)
    (hk : k + 6 ≤ Binary64.boundLimit) : (∃ n, b.score = .ok n) ↔ ∀ κ ∈ kinds, κ = .number := by
  obtain ⟨t, htotal, ht⟩ := h.exists_total hk
  -- clamping adds no fault to the one that rounding may have
  have hfloor := ht.exists_floor_iff (by omega) hk
  rw [foldl_add_eq_number_iff, eq_self, true_and] at hfloor
  rw [← hfloor]
  constructor
  · rintro ⟨n, hn⟩
    obtain ⟨_, htotal', hn⟩ := bind_eq_ok.mp hn
    cases htotal.symm.trans htotal'
    obtain ⟨rest, hrest, hn⟩ := bind_eq_ok.mp hn
    obtain ⟨m, hm, -⟩ := bind_eq_ok.mp hn
    exact ⟨m, bind_eq_ok.mpr ⟨rest, hrest, hm⟩⟩
  · rintro ⟨m, hm⟩
    obtain ⟨rest, hrest, hm⟩ := bind_eq_ok.mp hm
    exact ⟨_, bind_eq_ok.mpr ⟨t, htotal, bind_eq_ok.mpr ⟨rest, hrest,
      bind_eq_ok.mpr ⟨m, hm, rfl⟩⟩⟩⟩

/-- A score is clamped. -/
theorem score_mem_range {n : Int} (h : b.score = .ok n) : 0 ≤ n ∧ n ≤ 100 := by
  obtain ⟨_, -, h⟩ := bind_eq_ok.mp h
  obtain ⟨_, -, h⟩ := bind_eq_ok.mp h
  obtain ⟨m, -, h⟩ := bind_eq_ok.mp h
  cases h
  omega

end Breakdown

/-! ### The deductions of moderate signals -/

section Moderate

variable {given : OrderedMap Value} {w : Weights} {s : Signals}

/-- Accepted weights of moderate size have their kinds. -/
theorem Weights.Moderate.has (hw : w.Moderate) (haccepted : Weights.ofEntries given = .ok w)
    {name : String} {q : Quantity} (he : (name, q) ∈ w.entries) :
    q.Has moderateExponent q.kind := by
  have hbound : q.toRat ≤ 2 ^ moderateExponent := hw (name, q) he
  exact Quantity.has_kind (Weights.not_negative_of_ofEntries haccepted (name, q) he) hbound

/-- The bound on a deduction. Products double the exponent, and the sum of the findings has three
terms. -/
def deductionExponent : Nat := 2 * moderateExponent + 2

/-- Moderately many units of a moderate weight. -/
theorem exists_times {count : Nat} {q : Quantity} (hcount : count ≤ 2 ^ moderateExponent)
    (hq : q.Has moderateExponent q.kind) :
    ∃ c, Quantity.times count q = .ok c ∧
      c.Has (moderateExponent + moderateExponent) (q.kind.times count) :=
  Quantity.Has.times hcount hq (by decide)

theorem Signals.activeHotspots_le_length (s : Signals) (w : Weights) :
    s.activeHotspots w ≤ s.hotspots.length :=
  List.countP_le_length

/-- The weighted sum of moderately many findings. -/
theorem exists_securityLoad_of_moderate {findings : List Finding}
    (hfindings : findings.length ≤ 2 ^ moderateExponent)
    (hcritical : w.criticalWeight.Has moderateExponent w.criticalWeight.kind)
    (hhigh : w.highWeight.Has moderateExponent w.highWeight.kind)
    (hmedium : w.mediumWeight.Has moderateExponent w.mediumWeight.kind) :
    ∃ load, Breakdown.securityLoad w findings = .ok load ∧
      load.Has deductionExponent (loadKind [(Finding.count .critical findings, w.criticalWeight),
        (Finding.count .high findings, w.highWeight),
        (Finding.count .medium findings, w.mediumWeight)]) := by
  have hcount (severity : Severity) : Finding.count severity findings ≤ 2 ^ moderateExponent :=
    (List.countP_le_length).trans hfindings
  obtain ⟨critical, hcriticalEq, hcritical⟩ := exists_times (hcount .critical) hcritical
  obtain ⟨high, hhighEq, hhigh⟩ := exists_times (hcount .high) hhigh
  obtain ⟨medium, hmediumEq, hmedium⟩ := exists_times (hcount .medium) hmedium
  obtain ⟨sum, hsumEq, hsum⟩ := hcritical.add hhigh (by decide)
  obtain ⟨load, hloadEq, hload⟩ := hsum.add (hmedium.mono (Nat.le_succ _)) (by decide)
  refine ⟨load, ?_, ?_⟩
  · rw [Breakdown.securityLoad, hcriticalEq, ok_bind, hhighEq, ok_bind, hmediumEq, ok_bind, hsumEq,
      ok_bind, hloadEq]
  · rw [loadKind, List.foldr_cons, List.foldr_cons, List.foldr_cons, List.foldr_nil,
      Kind.add_number, ← Kind.add_assoc]
    exact hload

/-- The kinds of the deductions, given how the two ratios compare with their thresholds. -/
def deductionKinds (coupled fewComments : Bool) (s : Signals) (w : Weights) : List Kind :=
  [flatKind (w.largeProjectFiles.lt (.int s.files)) w.sizePenalty.kind,
   flatKind (w.largeProjectLines.lt (.int s.lines)) w.linesPenalty.kind,
   (loadKind [(s.activeHotspots w, w.hotspotPenalty)]).min w.hotspotCap.kind,
   flatKind coupled w.couplingPenalty.kind,
   (loadKind [(s.unused, w.unusedPenalty)]).min w.unusedCap.kind,
   (loadKind [(Finding.count .critical s.findings, w.criticalWeight),
    (Finding.count .high s.findings, w.highWeight),
    (Finding.count .medium s.findings, w.mediumWeight)]).min w.securityCap.kind,
   flatKind fewComments w.commentPenalty.kind]

/-- Weights are usable if all deductions are numbers. -/
theorem Weights.usable_iff {coupled fewComments : Bool} (hcoupled : s.tooCoupled w = .ok coupled)
    (hfew : s.tooFewComments w = .ok fewComments) :
    w.Usable s ↔ ∀ κ ∈ deductionKinds coupled fewComments s w, κ = .number := by
  have hok {b : Bool} {x : Except Fault Bool} (hx : x = .ok b) : x = .ok true ↔ b = true := by
    rw [hx, Except.ok.injEq]
  simp only [deductionKinds, List.forall_mem_cons, List.not_mem_nil, false_implies, implies_true,
    and_true, flatKind_eq_number_iff, ← payable_iff, ← hok hcoupled, ← hok hfew]
  exact ⟨fun ⟨h₁, h₂, h₃, h₄, h₅, h₆, h₇⟩ => ⟨h₁, h₂, h₃, h₄, h₅, h₆, h₇⟩,
    fun ⟨h₁, h₂, h₃, h₄, h₅, h₆, h₇⟩ => ⟨h₁, h₂, h₃, h₄, h₅, h₆, h₇⟩⟩

theorem lt_ratioBound {n : Nat} (h : n ≤ 2 ^ moderateExponent) : n < ratioBound := by
  refine h.trans_lt ?_
  rw [ratioBound, Nat.pow_lt_pow_iff_right (by norm_num)]
  decide

/-- Moderate signals have deductions, of kinds that the weights in force decide. -/
theorem Breakdown.exists_of_moderate (haccepted : Weights.ofEntries given = .ok w)
    (hw : w.Moderate) (hs : s.Moderate) :
    ∃ b coupled fewComments, Breakdown.of s w = .ok b ∧ s.tooCoupled w = .ok coupled ∧
      s.tooFewComments w = .ok fewComments ∧
      b.Has deductionExponent (deductionKinds coupled fewComments s w) := by
  have has (name : String) (q : Quantity) (he : (name, q) ∈ w.entries) := hw.has haccepted he
  have deducts (name : String) (q : Quantity) (he : (name, q) ∈ w.entries) :
      q.Has deductionExponent q.kind := (has name q he).mono (by decide)
  -- the comparisons have an outcome whatever their thresholds are, also what is no number
  obtain ⟨coupled, hcoupled⟩ := s.exists_tooCoupled (lt_ratioBound hs.edges) w
  obtain ⟨few, hfew⟩ := s.exists_tooFewComments (lt_ratioBound hs.commentLines) w
  obtain ⟨active, hactiveEq, hactive⟩ := exists_times
    ((s.activeHotspots_le_length w).trans hs.hotspots)
    (has "hotspot_penalty" w.hotspotPenalty (by simp [Weights.entries]))
  obtain ⟨unused, hunusedEq, hunused⟩ := exists_times hs.unused
    (has "unused_dependency_penalty" w.unusedPenalty (by simp [Weights.entries]))
  obtain ⟨load, hloadEq, hload⟩ := exists_securityLoad_of_moderate hs.findings
    (has "critical_weight" w.criticalWeight (by simp [Weights.entries]))
    (has "high_weight" w.highWeight (by simp [Weights.entries]))
    (has "medium_weight" w.mediumWeight (by simp [Weights.entries]))
  refine ⟨_, coupled, few, bind_eq_ok.mpr ⟨active, hactiveEq, bind_eq_ok.mpr ⟨coupled, hcoupled,
    bind_eq_ok.mpr ⟨unused, hunusedEq, bind_eq_ok.mpr ⟨load, hloadEq,
      bind_eq_ok.mpr ⟨few, hfew, rfl⟩⟩⟩⟩⟩, hcoupled, hfew, ?_⟩
  unfold Breakdown.Has deductionKinds Breakdown.entries
  simp only [List.forall₂_cons, List.forall₂_nil_left_iff, and_true, loadKind_singleton]
  have hactive' := hactive.mono (show _ ≤ deductionExponent by decide)
  have hunused' := hunused.mono (show _ ≤ deductionExponent by decide)
  exact ⟨
    has_flat (deducts "size_penalty" w.sizePenalty (by simp [Weights.entries])) _,
    has_flat (deducts "loc_penalty" w.linesPenalty (by simp [Weights.entries])) _,
    hactive'.min (deducts "hotspot_penalty_cap" w.hotspotCap (by simp [Weights.entries])),
    has_flat (deducts "coupling_penalty" w.couplingPenalty (by simp [Weights.entries])) _,
    hunused'.min (deducts "unused_dependency_penalty_cap" w.unusedCap (by simp [Weights.entries])),
    hload.min (deducts "security_penalty_cap" w.securityCap (by simp [Weights.entries])),
    has_flat (deducts "comment_penalty" w.commentPenalty (by simp [Weights.entries])) _⟩

end Moderate

/-! ### Scores -/

/-- **When accepted weights leave a score.** A score lies between 0 and 100 whenever there is one.
Whole weights always leave one, however large, as long as the two ratios can be rounded. Accepted
weights of any other kind, in moderate size, leave one exactly if no weight in force spoils the sum:
a flat penalty must be a number if it applies, and a load must not hold what is no number, nor no
units of the infinite value, nor the infinite value under a cap that is not a number. -/
theorem healthScore_exists_iff_usable {given : OrderedMap Value} {w : Weights}
    (haccepted : Weights.ofEntries given = .ok w) (s : Signals) :
    (∀ n, healthScore s w = .ok n → 0 ≤ n ∧ n ≤ 100) ∧
    (w.Integral → s.edges < ratioBound → s.commentLines < ratioBound →
      ∃ n, healthScore s w = .ok n) ∧
    (w.Moderate → s.Moderate → ((∃ n, healthScore s w = .ok n) ↔ w.Usable s)) := by
  refine ⟨?_, ?_, ?_⟩
  · intro n hn
    obtain ⟨b, -, hscore⟩ := bind_eq_ok.mp hn
    exact Breakdown.score_mem_range hscore
  · exact exists_healthScore_of_integral
  · intro hw hs
    obtain ⟨b, coupled, few, hb, hcoupled, hfew, hkinds⟩ :=
      Breakdown.exists_of_moderate haccepted hw hs
    rw [Weights.usable_iff hcoupled hfew,
      ← hkinds.exists_score_iff (by decide) (by decide), healthScore, hb, ok_bind]

/-- Weights with an infinite penalty for hotspots, all others left at their defaults. -/
def endlessHotspots : Weights := { hotspotPenalty := .real (.infinite false) }

/-- The cap brings the infinite penalty down where there is an active hotspot; where there is none,
no units of it are no number. -/
theorem healthScore_exists_iff_usable_endlessHotspots :
    Weights.ofEntries [("hotspot_penalty", .real (.infinite false))] = .ok endlessHotspots ∧
      endlessHotspots.Moderate ∧
      (∃ n, healthScore { hotspots := [⟨"a.ts", 11⟩] } endlessHotspots = .ok n) ∧
      endlessHotspots.Usable { hotspots := [⟨"a.ts", 11⟩] } ∧
      ¬endlessHotspots.Usable {} := by
  have haccepted : Weights.ofEntries [("hotspot_penalty", .real (.infinite false))] =
      .ok endlessHotspots := eq_ok_of_toOption (by decide +kernel)
  have hsmall : ∀ e ∈ endlessHotspots.entries, e.2.toRat ≤ 2 ^ 14 := by decide +kernel
  have hw : endlessHotspots.Moderate := by
    intro e he
    exact (hsmall e he).trans (pow_le_pow_right₀ (by norm_num) (by decide))
  have hscore : ∃ n, healthScore { hotspots := [⟨"a.ts", 11⟩] } endlessHotspots = .ok n :=
    ⟨85, eq_ok_of_toOption (by decide +kernel)⟩
  have hnone : ¬∃ n, healthScore {} endlessHotspots = .ok n := by
    rintro ⟨n, hn⟩
    have hoption : (healthScore {} endlessHotspots).toOption = none := by decide +kernel
    rw [hn] at hoption
    cases hoption
  have hone : 1 ≤ 2 ^ moderateExponent := Nat.one_le_two_pow
  have hzero : 0 ≤ 2 ^ moderateExponent := Nat.zero_le _
  have hiff := (healthScore_exists_iff_usable haccepted { hotspots := [⟨"a.ts", 11⟩] }).2.2 hw
    ⟨hzero, hzero, hone, hzero, hzero⟩
  have hiff' := (healthScore_exists_iff_usable haccepted {}).2.2 hw
    ⟨hzero, hzero, hzero, hzero, hzero⟩
  exact ⟨haccepted, hw, hscore, hiff.mp hscore, fun h => hnone (hiff'.mpr h)⟩

/-- The fault of rounding what is left of the score. -/
theorem healthScore_eq_error {s : Signals} {w : Weights} {fault : Fault} (b : Breakdown)
    (total rest : Quantity) (hb : (Breakdown.of s w).toOption = some b)
    (htotal : b.total.toOption = some total)
    (hrest : (Quantity.sub (.int 100) total).toOption = some rest)
    (hfloor : rest.floor = .error fault) : healthScore s w = .error fault := by
  rw [healthScore, eq_ok_of_toOption hb, ok_bind, Breakdown.score, eq_ok_of_toOption htotal,
    ok_bind, eq_ok_of_toOption hrest, ok_bind, hfloor]
  rfl

/-- A large finite penalty. -/
def hugePenalty : Binary64 := .ofRatio false (10 ^ 308) 1

/-- Accepted weights leave no score if an infinite penalty applies, if there are no units of an
infinite penalty, and if finite penalties have too large a sum. -/
theorem healthScore_fails_for_accepted_weights :
    (∃ w, Weights.ofEntries [("size_penalty", .real (.infinite false))] = .ok w ∧
      healthScore { files := 201 } w =
        .error (.outOfRange "cannot convert float infinity to integer")) ∧
    (∃ w, Weights.ofEntries [("hotspot_penalty", .real (.infinite false))] = .ok w ∧
      healthScore {} w = .error (.badValue "cannot convert float NaN to integer")) ∧
    (∃ w, Weights.ofEntries [("size_penalty", .real hugePenalty),
        ("loc_penalty", .real hugePenalty)] = .ok w ∧
      healthScore { files := 201, lines := 10001 } w =
        .error (.outOfRange "cannot convert float infinity to integer")) := by
  refine ⟨⟨{ sizePenalty := .real (.infinite false) }, eq_ok_of_toOption (by decide +kernel), ?_⟩,
    ⟨endlessHotspots, eq_ok_of_toOption (by decide +kernel), ?_⟩,
    ⟨{ sizePenalty := .real hugePenalty, linesPenalty := .real hugePenalty },
      eq_ok_of_toOption (by decide +kernel), ?_⟩⟩
  · exact healthScore_eq_error { size := .real (.infinite false) } (.real (.infinite false))
      (.real (.infinite true)) (by decide +kernel) (by decide +kernel) (by decide +kernel) rfl
  · exact healthScore_eq_error { hotspots := .real .nan } (.real .nan) (.real .nan)
      (by decide +kernel) (by decide +kernel) (by decide +kernel) rfl
  · exact healthScore_eq_error { size := .real hugePenalty, lines := .real hugePenalty }
      (.real (.infinite false)) (.real (.infinite true))
      (by decide +kernel) (by decide +kernel) (by decide +kernel) rfl

end ScriptHealth
