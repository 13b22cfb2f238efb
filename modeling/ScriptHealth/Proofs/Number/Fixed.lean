import ScriptHealth.Number.Fixed
import ScriptHealth.Proofs.Json.RoundTrip
import ScriptHealth.Proofs.Number.Range
import ScriptHealth.Proofs.Text.Padded

/-!
# Fixed places, written and read

A quotient that is written with a fixed number of places passes through two roundings, to a
floating-point number and to the last place. The first one does nothing to a number of 53 bits over
a power of two, so the text depends on the quotient alone. The digits of the text, with the point
taken out, are the digits of the number of units of the last place, and this is how it is read.

## Main definitions

* `FixedDecimal` — a number of units of the last place
* `FixedDecimal.read?` — reads a numeral exactly and leaves what follows it

## Main results

* `Binary64.value_ofRatio_two_pow` — a number of 53 bits over a power of two is not rounded
* `Binary64.fixed_eq_fixedRatio` — a floating-point number is written by its value
* `FixedDecimal.read?_placed_append` — written units are read back
-/

namespace ScriptHealth.Number

/-! ### The text of a quotient -/

/-- Rounding depends on the quotient only. -/
theorem roundHalfEven_congr {a b c d : Nat} (hb : 0 < b) (hd : 0 < d) (h : a * d = c * b) :
    roundHalfEven a b = roundHalfEven c d :=
  le_antisymm (roundHalfEven_mono hb hd h.le) (roundHalfEven_mono hd hb h.ge)

/-- Equal quotients have one text. -/
theorem fixedRatio_congr {a b c d : Nat} (places : Nat) (hb : 0 < b) (hd : 0 < d)
    (h : (a : ℚ) / b = c / d) : fixedRatio places a b = fixedRatio places c d := by
  have hcross : a * d = c * b := by
    rw [div_eq_div_iff (by positivity) (by positivity)] at h
    exact_mod_cast h
  have hscaled : a * 10 ^ places * d = c * 10 ^ places * b := by
    calc a * 10 ^ places * d = a * d * 10 ^ places := by ring
      _ = c * b * 10 ^ places := by rw [hcross]
      _ = c * 10 ^ places * b := by ring
  exact congrArg (placed places) (roundHalfEven_congr hb hd hscaled)

/-- A number without places has its own digits. -/
theorem placed_zero (units : Nat) : placed 0 units = Nat.toDigits 10 units := by
  have hlength : 0 < (Nat.toDigits 10 units).length :=
    List.length_pos_of_ne_nil Nat.toDigits_ne_nil
  have hpadding : 0 + 1 - (Nat.toDigits 10 units).length = 0 := by omega
  rw [placed, if_pos rfl, hpadding, List.replicate_zero, List.nil_append]

namespace Binary64

/-- A number of at most 53 bits over a power of two is a floating-point number. -/
theorem value_ofRatio_two_pow {num k : Nat} (hnum : num < 2 ^ 53) (hk : k ≤ 1074) :
    value (ofRatio false num (2 ^ k)) = num / (2 ^ k : Nat) := by
  by_cases hzero : num = 0
  · simp [ofRatio, hzero]
  have hden : 0 < 2 ^ k := by positivity
  rw [value_ofRatio hzero (ofRatio_ne_infinite hnum (by decide) hden)]
  obtain ⟨-, hspec⟩ := quotientExponent_spec hzero hden
  set e := quotientExponent num (2 ^ k)
  -- the unit that the quotient is rounded to divides `2 ^ -k`
  have he : e ≤ -k := by
    rcases hspec with hleast | hlow
    · rw [hleast, leastExponent]
      omega
    · have hhigh : (num : ℚ) / (2 ^ k : Nat) < 2 ^ (53 - k : Int) := by
        rw [zpow_sub₀ (by norm_num), zpow_natCast]
        push_cast
        gcongr
        exact_mod_cast hnum
      have hlt := (zpow_lt_zpow_iff_right₀ (by norm_num)).mp (hlow.trans_lt hhigh)
      omega
  have hwhole : (num : ℚ) / (2 ^ k : Nat) = (num * 2 ^ (-k - e).toNat : Nat) * 2 ^ e := by
    push_cast
    rw [mul_assoc, ← zpow_natCast (2 : ℚ) (-k - e).toNat, Int.toNat_of_nonneg (by omega),
      ← zpow_add₀ (by norm_num), sub_add_cancel, zpow_neg, zpow_natCast]
    rfl
  rw [hwhole, le_antisymm (scaledRound_le hden hwhole.le) (le_scaledRound hden hwhole.ge)]

/-- A positive floating-point number is written by its value. -/
theorem fixed_eq_fixedRatio {x : Binary64} {num den : Nat} (places : Nat) (hx : x.IsFinite)
    (hnum : 0 < num) (hden : 0 < den) (hvalue : value x = num / den) :
    x.fixed places = fixedRatio places num den := by
  have hpos : 0 < value x := by
    rw [hvalue]
    positivity
  obtain ⟨a, c, e, rfl⟩ := hx
  obtain ⟨hsigned, hsign⟩ := signed_eq_of_nonneg hpos.le
  have hc : c ≠ 0 := by
    rintro rfl
    simp [value, signed] at hpos
  -- one of the two powers is 1
  have hpow : (2 : ℚ) ^ e = 2 ^ e.toNat / 2 ^ (-e).toNat := by
    rw [← zpow_natCast, ← zpow_natCast, ← zpow_sub₀ (by norm_num)]
    congr 1
    omega
  have hquotient : ((c * 2 ^ e.toNat : Nat) : ℚ) / (2 ^ (-e).toNat : Nat) = num / den := by
    rw [← hvalue, value, hsigned, hpow]
    push_cast
    ring
  rw [hsign.resolve_right hc]
  exact fixedRatio_congr places (by positivity) hden hquotient

end Binary64

/-! ### Reading -/

/-- A number of units of `10 ^ -places`. -/
structure FixedDecimal where
  places : Nat
  units : Nat
  deriving DecidableEq, Repr

namespace FixedDecimal

/-- The exact value. -/
def toRat (d : FixedDecimal) : ℚ := d.units / 10 ^ d.places

/-- Read digits, or digits on both sides of a point, and leave what follows them. -/
def read? (s : List Char) : Option (FixedDecimal × List Char) :=
  let (whole, rest) := spanDigits s
  if whole = [] then none
  else
    match rest with
    | '.' :: rest =>
      let (fraction, rest) := spanDigits rest
      if fraction = [] then none
      else some (⟨fraction.length, digitsValue (whole ++ fraction)⟩, rest)
    | rest => some (⟨0, digitsValue whole⟩, rest)

/-- A text that does not extend a numeral: it starts with no digit and no point. -/
def Ends (rest : List Char) : Prop := ∀ c, rest.head? = some c → c.isDigit = false ∧ c ≠ '.'

variable {whole fraction rest : List Char}

theorem read?_whole (hne : whole ≠ []) (hwhole : ∀ c ∈ whole, c.isDigit = true)
    (hrest : Ends rest) : read? (whole ++ rest) = some (⟨0, digitsValue whole⟩, rest) := by
  unfold read?
  rw [spanDigits_append hwhole fun c hc => (hrest c hc).1]
  dsimp only
  rw [if_neg hne]
  split
  · exact absurd rfl (hrest '.' rfl).2
  · rfl

theorem read?_fraction (hne : whole ≠ []) (hwhole : ∀ c ∈ whole, c.isDigit = true)
    (hne' : fraction ≠ []) (hfraction : ∀ c ∈ fraction, c.isDigit = true) (hrest : Ends rest) :
    read? (whole ++ '.' :: (fraction ++ rest)) =
      some (⟨fraction.length, digitsValue (whole ++ fraction)⟩, rest) := by
  have hpoint (c : Char) (hc : ('.' :: (fraction ++ rest)).head? = some c) : c.isDigit = false := by
    cases hc
    decide
  unfold read?
  rw [spanDigits_append hwhole hpoint]
  dsimp only
  rw [if_neg hne]
  split
  · rename_i r hr
    obtain rfl := (List.cons.inj hr).2
    rw [spanDigits_append hfraction fun c hc => (hrest c hc).1]
    dsimp only
    rw [if_neg hne']
  · rename_i hother
    exact absurd rfl (hother _)

/-- Zeros in front do not change a number. -/
theorem digitsValue_zeroPadded (width n : Nat) : digitsValue (Text.zeroPadded 10 width n) = n := by
  rw [Text.zeroPadded, digitsValue_eq_ofDigitChars, Nat.ofDigitChars_append,
    Nat.ofDigitChars_replicate_zero, Nat.mul_zero, Nat.ofDigitChars_ten_toDigits]

/-- A number of units has more digits than places, so at least one stands before the point. -/
theorem lt_length_zeroPadded (places units : Nat) :
    places < (Text.zeroPadded 10 (places + 1) units).length := by
  rw [Text.zeroPadded, List.length_append, List.length_replicate]
  omega

/-- Units of the last place are read back. -/
theorem read?_placed_append (places units : Nat) (hrest : Ends rest) :
    read? (placed places units ++ rest) = some (⟨places, units⟩, rest) := by
  have hlength := lt_length_zeroPadded places units
  have hvalue := digitsValue_zeroPadded (places + 1) units
  have hdigits (c : Char) (hc : c ∈ Text.zeroPadded 10 (places + 1) units) : c.isDigit = true :=
    Text.isDigit_of_mem_zeroPadded hc
  have hplaced : placed places units =
      let ds := Text.zeroPadded 10 (places + 1) units
      if places = 0 then ds
      else ds.take (ds.length - places) ++ '.' :: ds.drop (ds.length - places) := rfl
  rw [hplaced]
  generalize Text.zeroPadded 10 (places + 1) units = ds at hlength hvalue hdigits
  dsimp only
  by_cases hplaces : places = 0
  · subst hplaces
    rw [if_pos rfl, read?_whole (List.ne_nil_of_length_pos hlength) hdigits hrest, hvalue]
  · have hwhole : ds.take (ds.length - places) ≠ [] := by
      refine List.ne_nil_of_length_pos ?_
      rw [List.length_take]
      omega
    have hlast : (ds.drop (ds.length - places)).length = places := by
      rw [List.length_drop]
      omega
    have hfraction : ds.drop (ds.length - places) ≠ [] :=
      List.ne_nil_of_length_pos (by omega)
    rw [if_neg hplaces, List.append_assoc, List.cons_append,
      read?_fraction hwhole (fun c hc => hdigits c (List.mem_of_mem_take hc)) hfraction
        (fun c hc => hdigits c (List.mem_of_mem_drop hc)) hrest,
      List.take_append_drop, hvalue, hlast]

end FixedDecimal

end ScriptHealth.Number
