import ScriptHealth.Proofs.Number.Quantity

/-!
# Arithmetic that stays in range

Rounding never leaves the interval from 0 to a power of two: the power is a number itself, and
rounding keeps the order. So sums and products of numbers with known bounds have bounds of their
own, and as long as these are small enough nothing becomes infinite.

## Main definitions

* `Binary64.Bounded` — a finite number from 0 to a power of two
* `Kind`, `Quantity.kind` — a number, the infinite value, or no number at all
* `Quantity.Has` — a quantity of a kind that is not negative, with a bound if it is a number

## Main results

* `Binary64.bounded_ofRatio` — rounding keeps the bound
* `Binary64.Bounded.add`, `Binary64.Bounded.mul` — bounds of sums and products
* `Binary64.Bounded.isFinite_sub` — differences are finite
* `Quantity.Has.add`, `Quantity.Has.times`, `Quantity.Has.min` — kinds are computed from kinds
* `Quantity.Has.exists_floor_iff` — only what was taken off a number leaves an integer
-/

namespace ScriptHealth.Number.Binary64

/-! ### Quotients -/

/-- The greatest power of two for which the bounds are stated. -/
def boundLimit : Nat := 1022

/-- A finite number that is not negative and at most `2 ^ k`. -/
def Bounded (k : Nat) (x : Binary64) : Prop := x.IsFinite ∧ 0 ≤ value x ∧ value x ≤ 2 ^ k

variable {k j : Nat} {x y : Binary64}

theorem Bounded.mono (h : Bounded k x) (hkj : k ≤ j) : Bounded j x :=
  ⟨h.1, h.2.1, h.2.2.trans (pow_le_pow_right₀ (by norm_num) hkj)⟩

theorem bounded_zero (negative : Bool) (k : Nat) : Bounded k (zero negative) :=
  ⟨⟨_, _, _, rfl⟩, by simp, by simp⟩

/-- The sign does not take part in rounding. -/
theorem ofRatio_true (num den : Nat) : ofRatio true num den = neg (ofRatio false num den) := by
  unfold ofRatio
  split
  · rfl
  · unfold settle
    dsimp only
    generalize (if scaledRound num den (quotientExponent num den) = 2 ^ 53 then
      (2 ^ 52, quotientExponent num den + 1)
      else (scaledRound num den (quotientExponent num den), quotientExponent num den)) = normal
    obtain ⟨c, e⟩ := normal
    dsimp only
    split
    · rfl
    · split
      · rfl
      · rfl

/-- A quotient of at most `2 ^ k` is rounded to a number of at most `2 ^ k`. -/
theorem bounded_ofRatio {num den : Nat} (hden : 0 < den) (h : (num : ℚ) / den ≤ 2 ^ k)
    (hk : k ≤ boundLimit) : Bounded k (ofRatio false num den) := by
  have hlt : (num : ℚ) / den < 2 ^ ((k + 1 : Nat) : Int) := by
    rw [zpow_natCast]
    exact h.trans_lt (pow_lt_pow_right₀ (by norm_num) (Nat.lt_succ_self k))
  have hfinite : ofRatio false num den ≠ .infinite false := by
    refine ofRatio_ne_infinite_of_lt hlt ?_ hden
    have hlimit : ((boundLimit + 1 : Nat) : Int) < greatestExponent + 53 := by decide
    omega
  refine ⟨isFinite_ofRatio hfinite, value_ofRatio_nonneg hfinite, ?_⟩
  by_cases hnum : num = 0
  · simp [ofRatio, hnum]
  · rw [value_ofRatio hnum hfinite]
    obtain ⟨-, hspec⟩ := quotientExponent_spec hnum hden
    set e := quotientExponent num den
    -- the power of two is a multiple of the unit that the quotient is rounded to
    have he : e ≤ k := by
      rcases hspec with hleast | hlow
      · rw [hleast]
        have hneg : leastExponent < 0 := by decide
        omega
      · have hle := (zpow_le_zpow_iff_right₀ (by norm_num)).mp
          (hlow.trans (h.trans_eq (zpow_natCast (2 : ℚ) k).symm))
        omega
    have hpow : (2 : ℚ) ^ k = ((2 ^ (k - e).toNat : Nat) : ℚ) * 2 ^ e := by
      rw [Nat.cast_pow, Nat.cast_ofNat, ← zpow_natCast, ← zpow_natCast,
        Int.toNat_of_nonneg (by omega), ← zpow_add₀ (by norm_num), sub_add_cancel]
    rw [hpow] at h ⊢
    gcongr
    exact_mod_cast scaledRound_le hden h

/-- A quotient that reaches the least unit is not rounded to zero. -/
theorem value_ofRatio_pos {num den : Nat} (hden : 0 < den)
    (h : (2 : ℚ) ^ leastExponent ≤ num / den) (hfinite : ofRatio false num den ≠ .infinite false) :
    0 < value (ofRatio false num den) := by
  have hnum : num ≠ 0 := by
    rintro rfl
    have hpos : (0 : ℚ) < 2 ^ leastExponent := by positivity
    simp at h
    linarith
  rw [value_ofRatio hnum hfinite]
  have hround : 1 ≤ scaledRound num den (quotientExponent num den) := by
    refine le_scaledRound hden ?_
    rw [Nat.cast_one, one_mul]
    obtain ⟨-, hleast | hlow⟩ := quotientExponent_spec hnum hden
    · rwa [hleast]
    · exact (zpow_le_zpow_right₀ (by norm_num) (by omega)).trans hlow
  positivity

/-! ### Scaled coefficients -/

/-- A scaled coefficient is rounded as a quotient. -/
theorem ofScaled_eq (m : Nat) (e : Int) :
    ∃ num den : Nat, 0 < den ∧ (num : ℚ) / den = m * 2 ^ e ∧
      ∀ negative, ofScaled negative m e = ofRatio negative num den := by
  by_cases he : 0 ≤ e
  · refine ⟨m * 2 ^ e.toNat, 1, Nat.one_pos, ?_, fun negative => if_pos he⟩
    have hpow : (2 : ℚ) ^ e = 2 ^ e.toNat := by rw [← zpow_natCast, Int.toNat_of_nonneg he]
    rw [hpow]
    push_cast
    ring
  · refine ⟨m, 2 ^ (-e).toNat, by positivity, ?_, fun negative => if_neg he⟩
    have hpow : (2 : ℚ) ^ e = (2 ^ (-e).toNat)⁻¹ := by
      rw [← zpow_natCast, Int.toNat_of_nonneg (by omega), zpow_neg, inv_inv]
    rw [hpow]
    push_cast
    rfl

theorem bounded_ofScaled {m : Nat} {e : Int} (h : (m : ℚ) * 2 ^ e ≤ 2 ^ k) (hk : k ≤ boundLimit) :
    Bounded k (ofScaled false m e) := by
  obtain ⟨num, den, hden, hquotient, heq⟩ := ofScaled_eq m e
  rw [heq]
  exact bounded_ofRatio hden (hquotient.trans_le h) hk

/-- A bound on the size keeps numbers of either sign finite. -/
theorem isFinite_ofScaled (negative : Bool) {m : Nat} {e : Int} (h : (m : ℚ) * 2 ^ e ≤ 2 ^ k)
    (hk : k ≤ boundLimit) : (ofScaled negative m e).IsFinite := by
  obtain ⟨num, den, hden, hquotient, heq⟩ := ofScaled_eq m e
  obtain ⟨a, c, f, hfinite⟩ := (bounded_ofRatio hden (hquotient.trans_le h) hk).1
  rw [heq]
  cases negative with
  | false => exact ⟨a, c, f, hfinite⟩
  | true => exact ⟨!a, c, f, by rw [ofRatio_true, hfinite, neg]⟩

/-! ### Sums, differences and products -/

theorem value_neg (x : Binary64) : value (neg x) = -value x := by
  cases x with
  | nan => simp [neg, value]
  | infinite a => simp [neg, value]
  | finite a c e => cases a <;> simp [neg, value, signed]

theorem IsFinite.neg (h : x.IsFinite) : x.neg.IsFinite := by
  obtain ⟨a, c, e, rfl⟩ := h
  exact ⟨_, _, _, rfl⟩

/-- The sum of finite numbers is the exact sum, rounded once. -/
theorem exists_add_eq (hx : x.IsFinite) (hy : y.IsFinite) :
    ∃ total low : Int, (total : ℚ) * 2 ^ low = value x + value y ∧
      ((total = 0 ∧ ∃ negative, x.add y = zero negative) ∨
        x.add y = ofScaled (total < 0) total.natAbs low) := by
  obtain ⟨a, c, e, rfl⟩ := hx
  obtain ⟨b, d, f, rfl⟩ := hy
  refine ⟨align (signed a c) e (min e f) + align (signed b d) f (min e f), min e f, ?_, ?_⟩
  · push_cast
    rw [add_mul, align_mul_zpow _ (min_le_left e f), align_mul_zpow _ (min_le_right e f)]
    rfl
  · rw [add]
    split
    · rename_i hzero
      exact .inl ⟨hzero, _, rfl⟩
    · exact .inr rfl

theorem Bounded.add (hx : Bounded k x) (hy : Bounded k y) (hk : k < boundLimit) :
    Bounded (k + 1) (x.add y) := by
  obtain ⟨total, low, hsum, ⟨-, negative, hzero⟩ | hround⟩ := exists_add_eq hx.1 hy.1
  · rw [hzero]
    exact bounded_zero negative _
  · have hnonneg : 0 ≤ total := by
      have hvalue : (0 : ℚ) ≤ total * 2 ^ low := hsum ▸ add_nonneg hx.2.1 hy.2.1
      exact_mod_cast nonneg_of_mul_nonneg_left hvalue (by positivity)
    have hsize : (total.natAbs : ℚ) * 2 ^ low ≤ 2 ^ (k + 1) := by
      have habs : (total.natAbs : ℚ) = total := by
        rw [← Int.cast_natCast, Int.natAbs_of_nonneg hnonneg]
      rw [habs, hsum, pow_succ]
      linarith [hx.2.2, hy.2.2]
    rw [hround, decide_eq_false (not_lt.mpr hnonneg)]
    exact bounded_ofScaled hsize hk

/-- A difference of bounded numbers is finite. -/
theorem Bounded.isFinite_sub (hx : Bounded k x) (hy : Bounded k y) (hk : k ≤ boundLimit) :
    (x.sub y).IsFinite := by
  obtain ⟨total, low, hsum, ⟨-, negative, hzero⟩ | hround⟩ := exists_add_eq hx.1 hy.1.neg
  · rw [sub, hzero]
    exact ⟨_, _, _, rfl⟩
  · -- neither number is negative, so the difference is no larger than the larger of the two
    have hsize : (total.natAbs : ℚ) * 2 ^ low ≤ 2 ^ k := by
      have habs : (total.natAbs : ℚ) * 2 ^ low = |(total : ℚ) * 2 ^ low| := by
        rw [abs_mul, abs_of_pos (show (0 : ℚ) < 2 ^ low by positivity), Nat.cast_natAbs,
          Int.cast_abs]
      rw [habs, hsum, value_neg, abs_le]
      constructor <;> linarith [hx.2.1, hx.2.2, hy.2.1, hy.2.2]
    rw [sub, hround]
    exact isFinite_ofScaled _ hsize hk

/-- The sign of a number that is not negative does not matter. -/
theorem signed_eq_of_nonneg {a : Bool} {c : Nat} {e : Int} (h : 0 ≤ value (.finite a c e)) :
    signed a c = c ∧ (a = false ∨ c = 0) := by
  cases a with
  | false => exact ⟨rfl, .inl rfl⟩
  | true =>
    have hpos : (0 : ℚ) < 2 ^ e := by positivity
    have hc : c = 0 := by
      have hle : (c : ℚ) ≤ 0 := by
        have hvalue : (0 : ℚ) ≤ -c * 2 ^ e := by simpa [value, signed] using h
        have := nonneg_of_mul_nonneg_left hvalue hpos
        linarith
      exact_mod_cast le_antisymm hle (by positivity)
    subst hc
    exact ⟨rfl, .inr rfl⟩

theorem Bounded.mul (hx : Bounded j x) (hy : Bounded k y) (hjk : j + k ≤ boundLimit) :
    Bounded (j + k) (x.mul y) := by
  obtain ⟨⟨a, c, e, rfl⟩, hxNonneg, hxBound⟩ := hx
  obtain ⟨⟨b, d, f, rfl⟩, hyNonneg, hyBound⟩ := hy
  obtain ⟨hc, ha⟩ := signed_eq_of_nonneg hxNonneg
  obtain ⟨hd, hb⟩ := signed_eq_of_nonneg hyNonneg
  rw [Binary64.mul]
  -- a product of zero may have either sign; any other has the sign of its factors, and that is plus
  by_cases hzero : c * d = 0
  · have hround : ofScaled (a != b) (c * d) (e + f) = zero (a != b) := by
      simp [ofScaled, hzero, ofRatio]
    rw [hround]
    exact bounded_zero _ _
  · obtain ⟨hc', hd'⟩ := Nat.mul_ne_zero_iff.mp hzero
    rw [ha.resolve_right hc', hb.resolve_right hd']
    refine bounded_ofScaled ?_ hjk
    have hproduct : ((c * d : Nat) : ℚ) * 2 ^ (e + f) =
        value (.finite a c e) * value (.finite b d f) := by
      rw [value, value, hc, hd, zpow_add₀ (by norm_num)]
      push_cast
      ring
    rw [hproduct, pow_add]
    exact mul_le_mul hxBound hyBound hyNonneg (by positivity)

end ScriptHealth.Number.Binary64

namespace ScriptHealth

open Number Binary64

/-! ### Kinds -/

namespace Number

/-- What a quantity that is not negative can be. -/
inductive Kind where
  | number
  | infinite
  | nan
  deriving DecidableEq, Repr

namespace Kind

/-- The kind of a sum. -/
def add : Kind → Kind → Kind
  | .nan, _ | _, .nan => .nan
  | .infinite, _ | _, .infinite => .infinite
  | .number, .number => .number

/-- The kind of a product with a count: no units of the infinite value are no number. -/
def times (count : Nat) : Kind → Kind
  | .infinite => if count = 0 then .nan else .infinite
  | κ => κ

/-- The kind of a quantity under a cap: a cap that is a number brings the infinite value down. -/
def min : Kind → Kind → Kind
  | .infinite, .number => .number
  | κ, _ => κ

theorem add_eq_number_iff {κ κ' : Kind} : κ.add κ' = .number ↔ κ = .number ∧ κ' = .number := by
  cases κ <;> cases κ' <;> decide

theorem add_eq_nan_iff {κ κ' : Kind} : κ.add κ' = .nan ↔ κ = .nan ∨ κ' = .nan := by
  cases κ <;> cases κ' <;> decide

theorem add_number (κ : Kind) : κ.add .number = κ := by cases κ <;> rfl

theorem number_add (κ : Kind) : Kind.number.add κ = κ := by cases κ <;> rfl

theorem add_assoc (κ κ' κ'' : Kind) : (κ.add κ').add κ'' = κ.add (κ'.add κ'') := by
  cases κ <;> cases κ' <;> cases κ'' <;> rfl

theorem times_eq_number_iff {κ : Kind} {count : Nat} : κ.times count = .number ↔ κ = .number := by
  cases κ with
  | number => simp [times]
  | nan => simp [times]
  | infinite => by_cases hcount : count = 0 <;> simp [times, hcount]

theorem times_ne_nan_iff {κ : Kind} {count : Nat} :
    κ.times count ≠ .nan ↔ κ = .number ∨ (κ = .infinite ∧ 0 < count) := by
  cases κ with
  | number => simp [times]
  | nan => simp [times]
  | infinite => by_cases hcount : count = 0 <;> simp [times, hcount, Nat.pos_iff_ne_zero]

theorem min_eq_number_iff {κ κ' : Kind} :
    κ.min κ' = .number ↔ κ ≠ .nan ∧ (κ = .number ∨ κ' = .number) := by
  cases κ <;> cases κ' <;> decide

/-- A fraction of a kind; a number is at most `2 ^ k`. -/
def Fits (k : Nat) : Kind → Binary64 → Prop
  | .number, x => Bounded k x
  | .infinite, x => x = .infinite false
  | .nan, x => x = .nan

theorem Fits.add {k : Nat} {κ κ' : Kind} {x y : Binary64} (hx : κ.Fits k x) (hy : κ'.Fits k y)
    (hk : k < boundLimit) : (κ.add κ').Fits (k + 1) (x.add y) := by
  cases κ with
  | nan =>
    obtain rfl : x = .nan := hx
    rfl
  | infinite =>
    obtain rfl : x = .infinite false := hx
    cases κ' with
    | nan =>
      obtain rfl : y = .nan := hy
      rfl
    | infinite =>
      obtain rfl : y = .infinite false := hy
      rfl
    | number =>
      obtain ⟨⟨a, c, e, rfl⟩, -⟩ := hy
      rfl
  | number =>
    cases κ' with
    | nan =>
      obtain rfl : y = .nan := hy
      obtain ⟨⟨a, c, e, rfl⟩, -⟩ := hx
      rfl
    | infinite =>
      obtain rfl : y = .infinite false := hy
      obtain ⟨⟨a, c, e, rfl⟩, -⟩ := hx
      rfl
    | number => exact Bounded.add hx hy hk

/-- A number times a quantity, where the number is zero or not as the count says. -/
theorem Fits.mul {j k count : Nat} {κ : Kind} {x y : Binary64} (hx : Bounded j x)
    (hcount : count = 0 ↔ value x = 0) (hy : κ.Fits k y) (hjk : j + k ≤ boundLimit) :
    (κ.times count).Fits (j + k) (x.mul y) := by
  cases κ with
  | number => exact Bounded.mul hx hy hjk
  | nan =>
    obtain rfl : y = .nan := hy
    obtain ⟨⟨a, c, e, rfl⟩, -⟩ := hx
    rfl
  | infinite =>
    obtain rfl : y = .infinite false := hy
    obtain ⟨⟨a, c, e, rfl⟩, hnonneg, -⟩ := hx
    obtain ⟨hsigned, ha⟩ := signed_eq_of_nonneg hnonneg
    -- the product looks at the coefficient, which is zero exactly if the value is
    have hzero : count = 0 ↔ c = 0 := by
      rw [hcount, value, hsigned]
      have hpos : (2 : ℚ) ^ e ≠ 0 := by positivity
      simp [hpos]
    rw [times, Binary64.mul]
    by_cases hc : c = 0
    · rw [if_pos (hzero.mpr hc), if_pos hc]
      rfl
    · rw [if_neg (mt hzero.mp hc), if_neg hc, ha.resolve_right hc]
      rfl

end Kind

end Number

namespace Quantity

/-- The kind of a quantity. -/
def kind (q : Quantity) : Kind :=
  match q.exact with
  | .inl _ => .number
  | .inr .nan => .nan
  | .inr (.infinite _) => .infinite
  | .inr (.finite ..) => .number

/-- The exact value of a quantity that is a number. -/
def toRat (q : Quantity) : ℚ :=
  match q.exact with
  | .inl n => n
  | .inr x => x.value

/-- A quantity of a kind that is not negative; a number is at most `2 ^ k`. -/
def Has (k : Nat) (κ : Kind) (q : Quantity) : Prop :=
  match q.exact with
  | .inl n => κ = .number ∧ 0 ≤ n ∧ n ≤ 2 ^ k
  | .inr x => κ.Fits k x

variable {j k : Nat} {κ κ' : Kind} {a b q : Quantity}

/-- A quantity that was not found negative has its kind. -/
theorem has_kind (h : q.lt (.int 0) = false) (hbound : q.toRat ≤ 2 ^ k) : q.Has k q.kind := by
  unfold Has kind
  unfold toRat at hbound
  cases hq : q.exact with
  | inl n =>
    rw [hq] at hbound
    have hn : ¬n < 0 := by
      rw [← Whole.lt_iff hq (whole_int 0), h]
      exact Bool.false_ne_true
    exact ⟨rfl, not_lt.mp hn, by exact_mod_cast (show (n : ℚ) ≤ 2 ^ k from hbound)⟩
  | inr x =>
    rw [hq] at hbound
    rw [lt, cmp, hq] at h
    cases x with
    | nan => rfl
    | infinite negative =>
      cases negative with
      | true => cases h
      | false => rfl
    | finite s c e =>
      refine ⟨⟨_, _, _, rfl⟩, ?_, hbound⟩
      by_contra hneg
      have hcmp : cmpScaled (signed s c) e 0 0 = .lt := by
        rw [cmpScaled_eq_lt_iff]
        simpa [value] using hneg
      simp only [exact, cmpInt, hcmp] at h
      cases h

theorem Has.mono (h : q.Has k κ) (hkj : k ≤ j) : q.Has j κ := by
  unfold Has at h ⊢
  cases hq : q.exact with
  | inl n =>
    rw [hq] at h
    obtain ⟨hκ, hn, hk⟩ := h
    exact ⟨hκ, hn, hk.trans (pow_le_pow_right₀ (by norm_num) hkj)⟩
  | inr x =>
    rw [hq] at h
    cases κ with
    | number => exact Bounded.mono h hkj
    | infinite => exact h
    | nan => exact h

/-- An integer in range has a fraction, and that is zero only for zero. -/
theorem exists_toReal {n : Int} (hn : 0 ≤ n) (hbound : n ≤ 2 ^ k) (hk : k ≤ boundLimit) :
    ∃ x, toReal n = .ok x ∧ Bounded k x ∧ (n = 0 ↔ x.value = 0) := by
  obtain ⟨m, rfl⟩ := Int.eq_ofNat_of_zero_le hn
  have hround : ofInt m = ofRatio false m 1 := by
    rw [ofInt, decide_eq_false (not_lt.mpr hn), Int.natAbs_natCast]
  have hquotient : (m : ℚ) / (1 : Nat) ≤ 2 ^ k := by
    rw [Nat.cast_one, div_one]
    exact_mod_cast hbound
  have hbounded := bounded_ofRatio Nat.one_pos hquotient hk
  have hfinite : ofRatio false m 1 ≠ .infinite false := by
    obtain ⟨⟨a, c, e, heq⟩, -⟩ := hbounded
    rw [heq]
    exact Binary64.noConfusion
  refine ⟨ofRatio false m 1, ?_, hbounded, ?_⟩
  · obtain ⟨⟨a, c, e, heq⟩, -⟩ := hbounded
    rw [toReal, hround, heq]
  · constructor
    · intro hzero
      obtain rfl : m = 0 := by exact_mod_cast hzero
      simp [ofRatio]
    · intro hzero
      by_contra hne
      -- a count from 1 on is far above the least unit
      have hle : (2 : ℚ) ^ leastExponent ≤ (m : ℚ) / (1 : Nat) := by
        rw [Nat.cast_one, div_one]
        calc (2 : ℚ) ^ leastExponent
          _ ≤ 2 ^ (0 : Int) := zpow_le_zpow_right₀ (by norm_num) (by decide)
          _ = 1 := zpow_zero 2
          _ ≤ m := by exact_mod_cast Nat.one_le_iff_ne_zero.mpr (by exact_mod_cast hne)
      exact absurd hzero (value_ofRatio_pos Nat.one_pos hle hfinite).ne'

/-- The kind of a sum. -/
theorem Has.add (ha : a.Has k κ) (hb : b.Has k κ') (hk : k < boundLimit) :
    ∃ c, a.add b = .ok c ∧ c.Has (k + 1) (κ.add κ') := by
  unfold Has at ha hb
  rw [Quantity.add, combine]
  cases hx : a.exact with
  | inl m =>
    rw [hx] at ha
    obtain ⟨rfl, hm, hmBound⟩ := ha
    cases hy : b.exact with
    | inl n =>
      rw [hy] at hb
      obtain ⟨rfl, hn, hnBound⟩ := hb
      refine ⟨_, rfl, rfl, add_nonneg hm hn, ?_⟩
      rw [pow_succ]
      omega
    | inr y =>
      rw [hy] at hb
      obtain ⟨x, hreal, hbounded, -⟩ := exists_toReal hm hmBound hk.le
      dsimp only
      rw [hreal]
      exact ⟨_, rfl, Kind.Fits.add (show Kind.number.Fits k x from hbounded) hb hk⟩
  | inr x =>
    rw [hx] at ha
    cases hy : b.exact with
    | inl n =>
      rw [hy] at hb
      obtain ⟨rfl, hn, hnBound⟩ := hb
      obtain ⟨y, hreal, hbounded, -⟩ := exists_toReal hn hnBound hk.le
      dsimp only
      rw [hreal]
      exact ⟨_, rfl, ha.add (show Kind.number.Fits k y from hbounded) hk⟩
    | inr y =>
      rw [hy] at hb
      exact ⟨_, rfl, ha.add hb hk⟩

/-- The kind of a product with a count. -/
theorem Has.times {count : Nat} (hcount : count ≤ 2 ^ j) (h : q.Has k κ)
    (hjk : j + k ≤ boundLimit) : ∃ c, times count q = .ok c ∧ c.Has (j + k) (κ.times count) := by
  unfold Has at h
  have hcount' : (count : Int) ≤ 2 ^ j := by exact_mod_cast hcount
  rw [Quantity.times, combine]
  cases hq : q.exact with
  | inl n =>
    rw [hq] at h
    obtain ⟨rfl, hn, hnBound⟩ := h
    refine ⟨_, rfl, rfl, mul_nonneg (Int.natCast_nonneg count) hn, ?_⟩
    rw [pow_add]
    exact mul_le_mul hcount' hnBound hn (by positivity)
  | inr y =>
    rw [hq] at h
    obtain ⟨x, hreal, hbounded, hzero⟩ :=
      exists_toReal (Int.natCast_nonneg count) hcount' ((Nat.le_add_right j k).trans hjk)
    simp only [exact]
    rw [hreal]
    refine ⟨_, rfl, Kind.Fits.mul hbounded ?_ h hjk⟩
    rw [← hzero]
    exact_mod_cast Iff.rfl

/-- Nothing is above the infinite value. -/
theorem infinite_lt (q : Quantity) : Quantity.lt (.real (.infinite false)) q = false := by
  unfold lt cmp
  cases q.exact with
  | inl n => rfl
  | inr x =>
    cases x with
    | nan => rfl
    | infinite negative => cases negative <;> rfl
    | finite a c e => rfl

theorem nan_lt (q : Quantity) : Quantity.lt (.real .nan) q = false := by
  unfold lt cmp
  cases q.exact with
  | inl n => rfl
  | inr x => rfl

theorem lt_nan (q : Quantity) : q.lt (.real .nan) = false := by
  unfold lt cmp
  cases q.exact with
  | inl n => rfl
  | inr x => cases x <;> rfl

theorem Has.lt_infinite (h : q.Has k .number) : q.lt (.real (.infinite false)) = true := by
  unfold Has at h
  unfold lt cmp
  cases hq : q.exact with
  | inl n => rfl
  | inr x =>
    rw [hq] at h
    obtain ⟨⟨a, c, e, rfl⟩, -⟩ := h
    rfl

/-- Only a fraction can be other than a number. -/
theorem Has.exists_real (h : q.Has k κ) (hκ : κ ≠ .number) : ∃ x, q = .real x ∧ κ.Fits k x := by
  unfold Has at h
  cases q with
  | switch s => exact absurd h.1 hκ
  | int n => exact absurd h.1 hκ
  | real x => exact ⟨x, rfl, h⟩

theorem Has.eq_infinite (h : q.Has k .infinite) : q = .real (.infinite false) := by
  obtain ⟨x, hq, rfl⟩ := h.exists_real (by decide)
  exact hq

theorem Has.eq_nan (h : q.Has k .nan) : q = .real .nan := by
  obtain ⟨x, hq, rfl⟩ := h.exists_real (by decide)
  exact hq

/-- The kind of a quantity under a cap. -/
theorem Has.min (ha : a.Has k κ) (hb : b.Has k κ') : (a.min b).Has k (κ.min κ') := by
  unfold Quantity.min
  -- the cap is taken only if it is found smaller, which it is not beside what is no number
  cases κ' with
  | nan =>
    rw [hb.eq_nan, nan_lt, if_neg Bool.false_ne_true]
    cases κ <;> exact ha
  | infinite =>
    rw [hb.eq_infinite, infinite_lt, if_neg Bool.false_ne_true]
    cases κ <;> exact ha
  | number =>
    cases κ with
    | number =>
      split
      · exact hb
      · exact ha
    | infinite =>
      rw [ha.eq_infinite, hb.lt_infinite, if_pos rfl]
      exact hb
    | nan =>
      rw [ha.eq_nan, lt_nan, if_neg Bool.false_ne_true]
      rfl

/-- Only what was taken off a number leaves an integer. -/
theorem Has.exists_floor_iff (h : q.Has k κ) (hk : 7 ≤ k) (hlimit : k ≤ boundLimit) :
    (∃ n, (sub (.int 100) q >>= floor) = .ok n) ↔ κ = .number := by
  obtain ⟨x, hreal, hx, -⟩ :=
    exists_toReal (n := 100) (k := k) (by decide)
      (le_trans (by decide : (100 : Int) ≤ 2 ^ 7) (pow_le_pow_right₀ (by norm_num) hk)) hlimit
  -- a fraction is taken off the fraction that 100 is
  have hsub (y : Binary64) : sub (.int 100) (.real y) = .ok (.real (x.sub y)) := by
    rw [sub, combine]
    simp only [exact]
    rw [hreal]
    rfl
  cases κ with
  | number =>
    refine iff_of_true ?_ rfl
    unfold Has at h
    cases q with
    | switch s => exact ⟨_, rfl⟩
    | int n => exact ⟨_, rfl⟩
    | real y =>
      obtain ⟨a, c, e, hfinite⟩ := Bounded.isFinite_sub hx h hlimit
      rw [hsub, Outcome.ok_bind, hfinite]
      exact ⟨_, rfl⟩
  | infinite =>
    refine iff_of_false ?_ (by decide)
    rintro ⟨n, hn⟩
    obtain ⟨⟨a, c, e, rfl⟩, -⟩ := hx
    rw [h.eq_infinite, hsub] at hn
    cases hn
  | nan =>
    refine iff_of_false ?_ (by decide)
    rintro ⟨n, hn⟩
    obtain ⟨⟨a, c, e, rfl⟩, -⟩ := hx
    rw [h.eq_nan, hsub] at hn
    cases hn

end Quantity

end ScriptHealth
