import Mathlib.Order.Compare
import ScriptHealth.Number.Quantity
import ScriptHealth.Proofs.Data.Outcome
import ScriptHealth.Proofs.Number.Rounding

/-!
# Quantities by value

Quantities are compared by exact value, so a comparison with a fraction depends only on the value
of the fraction and follows the order of the rationals. Arithmetic on whole quantities, that is on
switches and integers, is integer arithmetic and always has a result.

## Main definitions

* `Quantity.Whole` — a switch or an integer, with its number
* `Quantity.AtMost` — two whole quantities in order

## Main results

* `Binary64.cmpScaled_eq_lt_iff` — comparing scaled coefficients compares their values
* `Quantity.lt_real_mono`, `Quantity.real_lt_anti` — comparisons with a fraction follow its value
* `Quantity.lt_int_mono` — comparisons with an integer follow the integer
* `Quantity.AtMost.add`, `AtMost.times`, `AtMost.min` — arithmetic keeps the order
-/

namespace ScriptHealth

open Number Outcome

namespace Number.Binary64

/-! ### Comparing values -/

/-- Writing a coefficient at a smaller exponent keeps the value. -/
theorem align_mul_zpow (c : Int) {e low : Int} (h : low ≤ e) :
    (align c e low : ℚ) * 2 ^ low = c * 2 ^ e := by
  have hpow : (2 : ℚ) ^ e = 2 ^ (e - low).toNat * 2 ^ low := by
    rw [← zpow_natCast, ← zpow_add₀ (by norm_num), Int.toNat_of_nonneg (by omega)]
    congr 1
    ring
  rw [hpow, align]
  push_cast
  ring

/-- Comparing scaled coefficients compares their values. -/
theorem cmpScaled_eq_lt_iff (c e d f : Int) :
    cmpScaled c e d f = .lt ↔ (c : ℚ) * 2 ^ e < d * 2 ^ f := by
  rw [← align_mul_zpow c (min_le_left e f), ← align_mul_zpow d (min_le_right e f),
    mul_lt_mul_iff_left₀ (by positivity), Int.cast_lt]
  exact compare_lt_iff_lt

/-- The same with the two sides exchanged. -/
theorem cmpScaled_eq_gt_iff (c e d f : Int) :
    cmpScaled c e d f = .gt ↔ (d : ℚ) * 2 ^ f < c * 2 ^ e := by
  rw [← align_mul_zpow c (min_le_left e f), ← align_mul_zpow d (min_le_right e f),
    mul_lt_mul_iff_left₀ (by positivity), Int.cast_lt]
  exact compare_gt_iff_gt

end Number.Binary64

namespace Quantity

open Binary64

/-- What is below a fraction is below every fraction of at least its value. -/
theorem lt_real_mono {t : Quantity} {x y : Binary64} (hx : x.IsFinite) (hy : y.IsFinite)
    (h : value x ≤ value y) (hlt : t.lt (.real x) = true) : t.lt (.real y) = true := by
  obtain ⟨a, c, e, rfl⟩ := hx
  obtain ⟨b, d, f, rfl⟩ := hy
  rw [lt, beq_iff_eq, cmp] at hlt ⊢
  cases ht : t.exact with
  | inl n =>
    rw [ht] at hlt
    simp only [exact, cmpInt, Option.map_some, Option.some_inj, Ordering.swap_eq_lt,
      cmpScaled_eq_gt_iff] at hlt ⊢
    exact hlt.trans_le h
  | inr z =>
    rw [ht] at hlt
    cases z with
    | nan => cases hlt
    | infinite negative => exact hlt
    | finite k m g =>
      simp only [exact, Binary64.cmp, Option.some_inj, cmpScaled_eq_lt_iff] at hlt ⊢
      exact hlt.trans_le h

/-- What is above a fraction is above every fraction of at most its value. -/
theorem real_lt_anti {t : Quantity} {x y : Binary64} (hx : x.IsFinite) (hy : y.IsFinite)
    (h : value y ≤ value x) (hlt : Quantity.lt (.real x) t = true) :
    Quantity.lt (.real y) t = true := by
  obtain ⟨a, c, e, rfl⟩ := hx
  obtain ⟨b, d, f, rfl⟩ := hy
  rw [lt, beq_iff_eq, cmp] at hlt ⊢
  cases ht : t.exact with
  | inl n =>
    rw [ht] at hlt
    simp only [exact, cmpInt, Option.some_inj, cmpScaled_eq_lt_iff] at hlt ⊢
    exact h.trans_lt hlt
  | inr z =>
    rw [ht] at hlt
    cases z with
    | nan => cases hlt
    | infinite negative => exact hlt
    | finite k m g =>
      simp only [exact, Binary64.cmp, Option.some_inj, cmpScaled_eq_lt_iff] at hlt ⊢
      exact h.trans_lt hlt

/-- What is below an integer is below every larger one. -/
theorem lt_int_mono {t : Quantity} {m n : Int} (h : m ≤ n) (hlt : t.lt (.int m) = true) :
    t.lt (.int n) = true := by
  rw [lt, beq_iff_eq, cmp] at hlt ⊢
  cases ht : t.exact with
  | inl k =>
    rw [ht] at hlt
    simp only [exact, Option.some_inj, compare_lt_iff_lt] at hlt ⊢
    exact hlt.trans_le h
  | inr z =>
    rw [ht] at hlt
    cases z with
    | nan => cases hlt
    | infinite negative => exact hlt
    | finite k c e =>
      simp only [exact, cmpInt, Option.some_inj, cmpScaled_eq_lt_iff] at hlt ⊢
      refine hlt.trans_le ?_
      gcongr

/-! ### Whole quantities -/

/-- A switch or an integer, with its number. -/
def Whole (q : Quantity) (n : Int) : Prop := q.exact = .inl n

/-- A whole quantity that is not negative. -/
def IsCount (q : Quantity) : Prop := ∃ n : Nat, q.Whole n

/-- Two whole quantities in order. -/
def AtMost (a b : Quantity) : Prop := ∃ m n, a.Whole m ∧ b.Whole n ∧ m ≤ n

section Whole

variable {a b : Quantity} {m n : Int}

theorem whole_int (n : Int) : (int n).Whole n := rfl

theorem Whole.lt_iff (ha : a.Whole m) (hb : b.Whole n) : a.lt b = true ↔ m < n := by
  rw [lt, cmp, ha, hb, beq_iff_eq, Option.some_inj, compare_lt_iff_lt]

theorem Whole.min (ha : a.Whole m) (hb : b.Whole n) : (a.min b).Whole (Min.min m n) := by
  unfold Quantity.min
  by_cases hlt : b.lt a = true
  · have hnm := (hb.lt_iff ha).mp hlt
    rw [if_pos hlt, min_eq_right hnm.le]
    exact hb
  · have hmn := not_lt.mp (mt (hb.lt_iff ha).mpr hlt)
    rw [if_neg hlt, min_eq_left hmn]
    exact ha

theorem Whole.add (ha : a.Whole m) (hb : b.Whole n) : a.add b = .ok (.int (m + n)) := by
  rw [Quantity.add, combine, ha, hb]

theorem Whole.sub (ha : a.Whole m) (hb : b.Whole n) : a.sub b = .ok (.int (m - n)) := by
  rw [Quantity.sub, combine, ha, hb]

theorem Whole.times (count : Nat) (ha : a.Whole m) : times count a = .ok (.int (count * m)) := by
  rw [Quantity.times, combine, ha, whole_int]

theorem Whole.floor (ha : a.Whole m) : a.floor = .ok m := by
  rw [Quantity.floor, ha]

/-- A whole quantity that was not found negative is a count. -/
theorem Whole.isCount (ha : a.Whole m) (h : a.lt (.int 0) = false) : a.IsCount := by
  have hm : ¬ m < 0 := by
    rw [← ha.lt_iff (whole_int 0), h]
    exact Bool.false_ne_true
  exact ⟨m.toNat, by rwa [Int.toNat_of_nonneg (not_lt.mp hm)]⟩

end Whole

section AtMost

variable {a a' b b' : Quantity}

theorem IsCount.atMost_self (h : a.IsCount) : a.AtMost a := by
  obtain ⟨n, hn⟩ := h
  exact ⟨n, n, hn, hn, le_rfl⟩

theorem IsCount.zero_atMost (h : a.IsCount) : (int 0).AtMost a := by
  obtain ⟨n, hn⟩ := h
  exact ⟨0, n, whole_int 0, hn, Int.natCast_nonneg n⟩

theorem AtMost.add (ha : a.AtMost a') (hb : b.AtMost b') :
    Both AtMost (a.add b) (a'.add b') := by
  obtain ⟨m, m', hm, hm', hle⟩ := ha
  obtain ⟨n, n', hn, hn', hle'⟩ := hb
  rw [hm.add hn, hm'.add hn']
  exact .ok ⟨_, _, whole_int _, whole_int _, add_le_add hle hle'⟩

/-- More units of a count weigh more. -/
theorem IsCount.times_atMost (ha : a.IsCount) {few many : Nat} (h : few ≤ many) :
    Both AtMost (times few a) (times many a) := by
  obtain ⟨n, hn⟩ := ha
  rw [hn.times, hn.times]
  refine .ok ⟨_, _, whole_int _, whole_int _, ?_⟩
  exact_mod_cast Nat.mul_le_mul_right n h

theorem AtMost.min (ha : a.AtMost a') (hb : b.AtMost b') : (a.min b).AtMost (a'.min b') := by
  obtain ⟨m, m', hm, hm', hle⟩ := ha
  obtain ⟨n, n', hn, hn', hle'⟩ := hb
  exact ⟨_, _, hm.min hn, hm'.min hn', min_le_min hle hle'⟩

end AtMost

end Quantity

end ScriptHealth
