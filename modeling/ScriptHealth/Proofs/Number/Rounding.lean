import Mathlib.Algebra.Order.Field.Power
import Mathlib.Data.Rat.Cast.Order
import Mathlib.Tactic.FieldSimp
import Mathlib.Tactic.Linarith
import Mathlib.Tactic.Positivity
import Mathlib.Tactic.Ring
import ScriptHealth.Number.Binary64

/-!
# Rounding keeps the order

A greater quotient never rounds to a smaller number. On one grid this is a fact about rounding to
the nearest natural number: two quotients on both sides of a half are moved apart, and at the half
itself both go to the same even neighbour. Quotients with different exponents are separated by the
power of two at which the grid changes.

## Main definitions

* `Binary64.IsFinite` — a number with an exact value
* `Binary64.value` — the exact value of a finite number

## Main results

* `roundHalfEven_mono` — rounding to a natural number keeps the order
* `Binary64.quotientExponent_spec` — the exponent that a quotient is rounded at
* `Binary64.value_ofRatio_mono` — rounding to a floating-point number keeps the order
-/

namespace ScriptHealth.Number

/-! ### Natural numbers -/

/-- A half goes to the even neighbour. -/
theorem roundHalfEven_of_half {num den k : Nat} (hden : 0 < den)
    (h : 2 * num = (2 * k + 1) * den) : roundHalfEven num den = k + k % 2 := by
  have hsplit : 2 * num = 2 * (den * k) + den := by rw [h]; ring
  have hdiv : num / den = k := by
    refine Nat.div_eq_of_lt_le ?_ ?_
    · rw [Nat.mul_comm]
      omega
    · rw [Nat.succ_mul, Nat.mul_comm k den]
      omega
  have hmod := Nat.div_add_mod num den
  rw [hdiv] at hmod
  have hhalf : 2 * (num % den) = den := by omega
  simp [roundHalfEven, hdiv, hhalf]

/-- A greater quotient never rounds to a smaller number. -/
theorem roundHalfEven_mono {a b c d : Nat} (hb : 0 < b) (hd : 0 < d) (h : a * d ≤ c * b) :
    roundHalfEven a b ≤ roundHalfEven c d := by
  by_contra hlt
  have hstep : roundHalfEven c d + 1 ≤ roundHalfEven a b := by omega
  have hup := two_mul_roundHalfEven_le a b
  have hdown := le_two_mul_roundHalfEven c d hd
  set m := roundHalfEven c d with hm
  set n := roundHalfEven a b with hn
  -- both quotients are at least and at most `m + 1 / 2`
  have ha : (2 * m + 1) * b ≤ 2 * a := by
    have hmul : (m + 1) * b ≤ n * b := Nat.mul_le_mul_right b hstep
    have hexpand : (2 * m + 1) * b + b = 2 * ((m + 1) * b) := by ring
    omega
  have hc : 2 * c ≤ (2 * m + 1) * d := by
    have hexpand : (2 * m + 1) * d = 2 * (m * d) + d := by ring
    omega
  have hcross : 2 * (a * d) ≤ 2 * (c * b) := Nat.mul_le_mul_left 2 h
  have haTie : 2 * a = (2 * m + 1) * b := by
    refine le_antisymm (Nat.le_of_mul_le_mul_right ?_ hd) ha
    calc 2 * a * d = 2 * (a * d) := by ring
      _ ≤ 2 * (c * b) := hcross
      _ = 2 * c * b := by ring
      _ ≤ (2 * m + 1) * d * b := Nat.mul_le_mul_right b hc
      _ = (2 * m + 1) * b * d := by ring
  have hcTie : 2 * c = (2 * m + 1) * d := by
    refine le_antisymm hc (Nat.le_of_mul_le_mul_right ?_ hb)
    calc (2 * m + 1) * d * b = (2 * m + 1) * b * d := by ring
      _ = 2 * a * d := by rw [haTie]
      _ = 2 * (a * d) := by ring
      _ ≤ 2 * (c * b) := hcross
      _ = 2 * c * b := by ring
  -- so both are ties, and go to the same even neighbour
  have hna : n = m + m % 2 := roundHalfEven_of_half hb haTie
  have hmc : m = m + m % 2 := roundHalfEven_of_half hd hcTie
  omega

namespace Binary64

/-! ### One grid -/

/-- The quotient `num / den` in units of `2 ^ e`, as a quotient of natural numbers. -/
theorem scaled_eq (num den : Nat) (e : Int) (hden : 0 < den) :
    ∃ a b : Nat, 0 < b ∧ scaledRound num den e = roundHalfEven a b ∧
      scaledFloor num den e = a / b ∧ (num : ℚ) / den = a / b * 2 ^ e := by
  have hden' : (den : ℚ) ≠ 0 := by positivity
  by_cases he : 0 ≤ e
  · refine ⟨num, den * 2 ^ e.toNat, by positivity, by simp [scaledRound, he],
      by simp [scaledFloor, he], ?_⟩
    have hpow : (2 : ℚ) ^ e = 2 ^ e.toNat := by rw [← zpow_natCast, Int.toNat_of_nonneg he]
    rw [hpow]
    push_cast
    field_simp
  · refine ⟨num * 2 ^ (-e).toNat, den, hden, by simp [scaledRound, he],
      by simp [scaledFloor, he], ?_⟩
    have hpow : (2 : ℚ) ^ e = (2 ^ (-e).toNat)⁻¹ := by
      rw [← zpow_natCast, Int.toNat_of_nonneg (by omega), zpow_neg, inv_inv]
    rw [hpow]
    push_cast
    field_simp

/-- On one grid a greater quotient never rounds to a smaller coefficient. -/
theorem scaledRound_mono {num den num' den' : Nat} (e : Int) (hden : 0 < den) (hden' : 0 < den')
    (h : (num : ℚ) / den ≤ num' / den') : scaledRound num den e ≤ scaledRound num' den' e := by
  obtain ⟨a, b, hb, hround, -, hq⟩ := scaled_eq num den e hden
  obtain ⟨c, d, hd, hround', -, hq'⟩ := scaled_eq num' den' e hden'
  rw [hround, hround']
  refine roundHalfEven_mono hb hd ?_
  rw [hq, hq'] at h
  have hle : (a : ℚ) / b ≤ c / d := le_of_mul_le_mul_right h (by positivity)
  rw [div_le_div_iff₀ (by positivity) (by positivity)] at hle
  exact_mod_cast hle

/-- Whole multiples of the unit bound the coefficient from below. -/
theorem le_scaledRound {num den k : Nat} {e : Int} (hden : 0 < den)
    (h : (k : ℚ) * 2 ^ e ≤ num / den) : k ≤ scaledRound num den e := by
  obtain ⟨a, b, hb, hround, -, hq⟩ := scaled_eq num den e hden
  rw [hq] at h
  have hle : (k : ℚ) ≤ a / b := le_of_mul_le_mul_right h (by positivity)
  rw [le_div_iff₀ (by positivity)] at hle
  -- a whole number is rounded to itself
  calc k = roundHalfEven (k * 1) 1 := (roundHalfEven_mul_right k 1 (by decide)).symm
    _ ≤ roundHalfEven a b :=
      roundHalfEven_mono (by decide) hb (by simpa using by exact_mod_cast hle)
    _ = scaledRound num den e := hround.symm

/-- Whole multiples of the unit bound the coefficient from above. -/
theorem scaledRound_le {num den k : Nat} {e : Int} (hden : 0 < den)
    (h : (num : ℚ) / den ≤ k * 2 ^ e) : scaledRound num den e ≤ k := by
  obtain ⟨a, b, hb, hround, -, hq⟩ := scaled_eq num den e hden
  rw [hq] at h
  have hle : (a : ℚ) / b ≤ k := le_of_mul_le_mul_right h (by positivity)
  rw [div_le_iff₀ (by positivity)] at hle
  calc scaledRound num den e = roundHalfEven a b := hround
    _ ≤ roundHalfEven (k * 1) 1 :=
      roundHalfEven_mono hb (by decide) (by simpa using by exact_mod_cast hle)
    _ = k := roundHalfEven_mul_right k 1 (by decide)

/-- Rounding down reaches a multiple of the unit when the quotient does. -/
theorem le_scaledFloor_iff {num den k : Nat} {e : Int} (hden : 0 < den) :
    k ≤ scaledFloor num den e ↔ (k : ℚ) * 2 ^ e ≤ num / den := by
  obtain ⟨a, b, hb, -, hfloor, hq⟩ := scaled_eq num den e hden
  have hb' : (0 : ℚ) < b := by exact_mod_cast hb
  rw [hfloor, hq, Nat.le_div_iff_mul_le hb, mul_le_mul_iff_left₀ (by positivity),
    le_div_iff₀ hb']
  exact_mod_cast Iff.rfl

/-! ### The exponent -/

/-- The binary logarithms of two numbers enclose their quotient. -/
theorem quotient_bounds {num den : Nat} (hnum : num ≠ 0) (hden : 0 < den) :
    (2 : ℚ) ^ ((num.log2 : Int) - den.log2 - 1) ≤ num / den ∧
      (num : ℚ) / den < 2 ^ ((num.log2 : Int) - den.log2 + 1) := by
  have hden' : (0 : ℚ) < den := by exact_mod_cast hden
  have hnumLow : (2 : ℚ) ^ (num.log2 : Int) ≤ num := by
    rw [zpow_natCast]
    exact_mod_cast Nat.log2_self_le hnum
  have hnumHigh : (num : ℚ) < 2 ^ ((num.log2 : Int) + 1) := by
    exact_mod_cast Nat.lt_log2_self
  have hdenLow : (2 : ℚ) ^ (den.log2 : Int) ≤ den := by
    rw [zpow_natCast]
    exact_mod_cast Nat.log2_self_le hden.ne'
  have hdenHigh : (den : ℚ) < 2 ^ ((den.log2 : Int) + 1) := by
    exact_mod_cast Nat.lt_log2_self
  constructor
  · rw [le_div_iff₀ hden']
    calc (2 : ℚ) ^ ((num.log2 : Int) - den.log2 - 1) * den
        ≤ 2 ^ ((num.log2 : Int) - den.log2 - 1) * 2 ^ ((den.log2 : Int) + 1) := by gcongr
      _ = 2 ^ (num.log2 : Int) := by
        rw [← zpow_add₀ (by norm_num)]
        congr 1
        ring
      _ ≤ num := hnumLow
  · rw [div_lt_iff₀ hden']
    calc (num : ℚ) < 2 ^ ((num.log2 : Int) + 1) := hnumHigh
      _ = 2 ^ ((num.log2 : Int) - den.log2 + 1) * 2 ^ (den.log2 : Int) := by
        rw [← zpow_add₀ (by norm_num)]
        congr 1
        ring
      _ ≤ 2 ^ ((num.log2 : Int) - den.log2 + 1) * den := by gcongr

theorem leastExponent_le_quotientExponent (num den : Nat) :
    leastExponent ≤ quotientExponent num den := by
  unfold quotientExponent
  dsimp only
  split <;> omega

/-- A quotient has at most 53 bits at its exponent, and exactly 53 unless the exponent is the
least. -/
theorem quotientExponent_spec {num den : Nat} (hnum : num ≠ 0) (hden : 0 < den) :
    (num : ℚ) / den < 2 ^ (quotientExponent num den + 53) ∧
      (quotientExponent num den = leastExponent ∨
        (2 : ℚ) ^ (quotientExponent num den + 52) ≤ num / den) := by
  obtain ⟨hlow, hhigh⟩ := quotient_bounds hnum hden
  set gap := (num.log2 : Int) - den.log2 with hgap
  have hexponent : quotientExponent num den =
      if 2 ^ 53 ≤ scaledFloor num den (max (gap - 53) leastExponent)
        then max (gap - 53) leastExponent + 1 else max (gap - 53) leastExponent := rfl
  set guess := max (gap - 53) leastExponent with hguess
  have hreach : 2 ^ 53 ≤ scaledFloor num den guess ↔ (2 : ℚ) ^ (guess + 53) ≤ num / den := by
    rw [le_scaledFloor_iff hden, add_comm guess, zpow_add₀ (by norm_num)]
    norm_num
  rw [hexponent]
  by_cases hbig : 2 ^ 53 ≤ scaledFloor num den guess
  · rw [if_pos hbig]
    have hpow := hreach.mp hbig
    -- the guess is one too small only where it follows the logarithms
    have hgap54 : guess + 53 < gap + 1 :=
      (zpow_lt_zpow_iff_right₀ (by norm_num)).mp (hpow.trans_lt hhigh)
    refine ⟨hhigh.trans_le (zpow_le_zpow_right₀ (by norm_num) (by omega)), .inr ?_⟩
    rwa [show guess + 1 + 52 = guess + 53 by ring]
  · rw [if_neg hbig]
    refine ⟨not_le.mp (mt hreach.mpr hbig), ?_⟩
    -- the guess is the least exponent, or the logarithms give it 53 bits
    rcases le_total (gap - 53) leastExponent with hle | hle
    · exact .inl (max_eq_right hle)
    · right
      rw [hguess, max_eq_left hle, show gap - 53 + 52 = gap - 1 by ring]
      exact hlow

/-- A greater quotient never has a smaller exponent. -/
theorem quotientExponent_mono {num den num' den' : Nat} (hnum : num ≠ 0) (hden : 0 < den)
    (hnum' : num' ≠ 0) (hden' : 0 < den') (h : (num : ℚ) / den ≤ num' / den') :
    quotientExponent num den ≤ quotientExponent num' den' := by
  obtain ⟨-, hleast | hlow⟩ := quotientExponent_spec hnum hden
  · rw [hleast]
    exact leastExponent_le_quotientExponent num' den'
  · obtain ⟨hhigh, -⟩ := quotientExponent_spec hnum' hden'
    have hlt := (zpow_lt_zpow_iff_right₀ (by norm_num)).mp ((hlow.trans h).trans_lt hhigh)
    omega

/-! ### Values -/

/-- A number with an exact value. -/
def IsFinite (x : Binary64) : Prop := ∃ a c e, x = .finite a c e

/-- The exact value of a finite number. -/
def value : Binary64 → ℚ
  | .finite a c e => signed a c * 2 ^ e
  | _ => 0

@[simp] theorem value_zero (negative : Bool) : value (zero negative) = 0 := by
  simp [zero, value, signed]

/-- Giving a coefficient its normal form keeps the value, if the number stays finite. -/
theorem value_settle {c : Nat} {e : Int} (h : settle false c e ≠ .infinite false) :
    value (settle false c e) = c * 2 ^ e := by
  by_cases hcarry : c = 2 ^ 53
  · -- a carry to the next power of two
    subst hcarry
    have hshift : settle false (2 ^ 53) e = if greatestExponent < e + 1 then .infinite false
        else .finite false (2 ^ 52) (e + 1) := by simp [settle]
    rw [hshift] at h ⊢
    rw [if_neg (fun hlt => h (if_pos hlt))]
    rw [value, signed, if_neg (by decide), zpow_add₀ (by norm_num)]
    push_cast
    ring
  · have hkeep : settle false c e = if greatestExponent < e then .infinite false
        else if c = 0 then zero false else .finite false c e := by rw [settle, if_neg hcarry]
    rw [hkeep] at h ⊢
    rw [if_neg (fun hlt => h (if_pos hlt))]
    split
    · rename_i hzero
      simp [hzero]
    · simp [value, signed]

theorem settle_eq_infinite_or_isFinite (negative : Bool) (c : Nat) (e : Int) :
    settle negative c e = .infinite negative ∨ (settle negative c e).IsFinite := by
  unfold settle
  generalize (if c = 2 ^ 53 then (2 ^ 52, e + 1) else (c, e)) = normal
  obtain ⟨c, e⟩ := normal
  dsimp only
  split
  · exact .inl rfl
  · split
    · exact .inr ⟨_, _, _, rfl⟩
    · exact .inr ⟨_, _, _, rfl⟩

/-- A rounded quotient that is not infinite is finite. -/
theorem isFinite_ofRatio {num den : Nat} (h : ofRatio false num den ≠ .infinite false) :
    (ofRatio false num den).IsFinite := by
  by_cases hnum : num = 0
  · rw [ofRatio, if_pos hnum]
    exact ⟨_, _, _, rfl⟩
  · rw [ofRatio, if_neg hnum] at h ⊢
    exact (settle_eq_infinite_or_isFinite _ _ _).resolve_left h

/-- A coefficient at an exponent that leaves room for a carry stays finite. -/
theorem settle_ne_infinite {c : Nat} {e : Int} (h : e < greatestExponent) :
    settle false c e ≠ .infinite false := by
  have hnormal : (if c = 2 ^ 53 then (2 ^ 52, e + 1) else (c, e)).2 ≤ greatestExponent := by
    split
    · exact h
    · exact h.le
  unfold settle
  generalize (if c = 2 ^ 53 then (2 ^ 52, e + 1) else (c, e)) = normal at hnormal
  obtain ⟨c, e⟩ := normal
  dsimp only at hnormal ⊢
  rw [if_neg (not_lt.mpr hnormal)]
  split
  · exact Binary64.noConfusion
  · exact Binary64.noConfusion

/-- A quotient below a power of two in range stays finite. -/
theorem ofRatio_ne_infinite_of_lt {num den k : Nat} (h : (num : ℚ) / den < 2 ^ (k : Int))
    (hk : (k : Int) < greatestExponent + 53) (hden : 0 < den) :
    ofRatio false num den ≠ .infinite false := by
  by_cases hzero : num = 0
  · rw [ofRatio, if_pos hzero]
    exact Binary64.noConfusion
  · have hexponent : quotientExponent num den < greatestExponent := by
      obtain ⟨-, hleast | hlow⟩ := quotientExponent_spec hzero hden
      · rw [hleast]
        decide
      · have hlt := (zpow_lt_zpow_iff_right₀ (by norm_num)).mp (hlow.trans_lt h)
        omega
    rw [ofRatio, if_neg hzero]
    exact settle_ne_infinite hexponent

/-- A quotient whose numerator is in range stays finite. -/
theorem ofRatio_ne_infinite {num den k : Nat} (hnum : num < 2 ^ k)
    (hk : (k : Int) < greatestExponent + 53) (hden : 0 < den) :
    ofRatio false num den ≠ .infinite false := by
  refine ofRatio_ne_infinite_of_lt ?_ hk hden
  have hle : (num : ℚ) / den ≤ num := div_le_self (by positivity) (by exact_mod_cast hden)
  rw [zpow_natCast]
  exact hle.trans_lt (by exact_mod_cast hnum)

/-- A quotient that stays finite is rounded at its exponent. -/
theorem value_ofRatio {num den : Nat} (hnum : num ≠ 0)
    (h : ofRatio false num den ≠ .infinite false) :
    value (ofRatio false num den) =
      scaledRound num den (quotientExponent num den) * 2 ^ quotientExponent num den := by
  rw [ofRatio, if_neg hnum] at h ⊢
  exact value_settle h

theorem value_ofRatio_nonneg {num den : Nat} (h : ofRatio false num den ≠ .infinite false) :
    0 ≤ value (ofRatio false num den) := by
  by_cases hnum : num = 0
  · simp [ofRatio, hnum]
  · rw [value_ofRatio hnum h]
    positivity

/-- A greater quotient never rounds to a smaller number. -/
theorem value_ofRatio_mono {num den num' den' : Nat} (hden : 0 < den) (hden' : 0 < den')
    (h : (num : ℚ) / den ≤ num' / den') (hfinite : ofRatio false num den ≠ .infinite false)
    (hfinite' : ofRatio false num' den' ≠ .infinite false) :
    value (ofRatio false num den) ≤ value (ofRatio false num' den') := by
  by_cases hnum : num = 0
  · rw [hnum]
    simpa [ofRatio] using value_ofRatio_nonneg hfinite'
  have hnum' : num' ≠ 0 := by
    rintro rfl
    have hpos : (0 : ℚ) < num / den := by positivity
    simp only [Nat.cast_zero, zero_div] at h
    exact absurd hpos (not_lt.mpr h)
  rw [value_ofRatio hnum hfinite, value_ofRatio hnum' hfinite']
  have hexponent := quotientExponent_mono hnum hden hnum' hden' h
  obtain ⟨hhigh, -⟩ := quotientExponent_spec hnum hden
  obtain ⟨-, hleast⟩ := quotientExponent_spec hnum' hden'
  have hbound := leastExponent_le_quotientExponent num den
  set e := quotientExponent num den
  set e' := quotientExponent num' den'
  rcases hexponent.eq_or_lt with heq | hlt
  · -- both on one grid
    rw [heq]
    gcongr
    exact scaledRound_mono e' hden hden' h
  · -- the power of two at which the grid changes stands between the two numbers
    have hlow : (2 : ℚ) ^ (e' + 52) ≤ num' / den' := hleast.resolve_left (by omega)
    have hround : scaledRound num den e ≤ 2 ^ 53 := by
      refine scaledRound_le hden ?_
      rw [add_comm, zpow_add₀ (by norm_num)] at hhigh
      exact_mod_cast hhigh.le
    have hround' : 2 ^ 52 ≤ scaledRound num' den' e' := by
      refine le_scaledRound hden' ?_
      rw [add_comm, zpow_add₀ (by norm_num)] at hlow
      exact_mod_cast hlow
    calc (scaledRound num den e : ℚ) * 2 ^ e ≤ 2 ^ 53 * 2 ^ e := by
          gcongr
          exact_mod_cast hround
      _ = 2 ^ (53 + e) := by rw [zpow_add₀ (by norm_num)]; norm_num
      _ ≤ 2 ^ (52 + e') := zpow_le_zpow_right₀ (by norm_num) (by omega)
      _ = 2 ^ 52 * 2 ^ e' := by rw [zpow_add₀ (by norm_num)]; norm_num
      _ ≤ scaledRound num' den' e' * 2 ^ e' := by
          gcongr
          exact_mod_cast hround'

end Binary64

end ScriptHealth.Number
