import ScriptHealth.Performance
import ScriptHealth.Proofs.Number.Fixed

/-!
# Sizes read back

A size is shown as a number of units of the last place of a byte, a kibibyte or a mebibyte. What is
shown can be read back as a number of bytes, and it is the nearest such number. Larger sizes are
never shown as smaller ones: in one unit because rounding keeps the order, and in two units because
a whole number of units is shown as it is, so that the border between them stands between the two
texts. Just below the border the smaller unit may show the border itself, as the larger unit does
just above it.

Sizes below `2 ^ 53` are shown by their exact value; beyond it the quotient is rounded before the
last place is.

## Main definitions

* `SizeUnit` — the units, with their bytes, places and symbols
* `SizeReading` — what a size text says
* `SizeUnit.shown` — a size in a unit

## Main results

* `SizeUnit.abs_toBytes_shown_sub_le` — what is shown is within half a unit of the last place
* `SizeUnit.toBytes_shown_of_mono` — what is shown is in order, across units too
* `formatSize_eq` — the text of a size below `2 ^ 53` shows the size in its unit
* `sizes_read_back_in_order` — what is read from the texts
-/

namespace ScriptHealth

open Number

/-! ### Units and readings -/

/-- The units that sizes are shown in. -/
inductive SizeUnit where
  | byte
  | kibibyte
  | mebibyte
  deriving DecidableEq, Repr

namespace SizeUnit

/-- The bytes of a unit. -/
def bytes : SizeUnit → Nat
  | .byte => 1
  | .kibibyte => 1024
  | .mebibyte => 1024 * 1024

/-- The places that a number of units is shown with. -/
def places : SizeUnit → Nat
  | .byte => 0
  | .kibibyte => 1
  | .mebibyte => 2

/-- What stands behind the number. -/
def symbol : SizeUnit → List Char
  | .byte => ['B']
  | .kibibyte => ['K', 'B']
  | .mebibyte => ['M', 'B']

/-- The unit of a symbol. -/
def ofSymbol? (s : List Char) : Option SizeUnit :=
  [byte, kibibyte, mebibyte].find? (·.symbol == s)

/-- The unit that a number of bytes is shown in. -/
def of (n : Nat) : SizeUnit :=
  if n < 1024 then .byte else if n < 1024 * 1024 then .kibibyte else .mebibyte

/-- The bytes by which what is shown may differ from the size. -/
def tolerance : SizeUnit → ℚ
  | .byte => 0
  | .kibibyte => 51.2
  | .mebibyte => 5242.88

theorem bytes_pos (u : SizeUnit) : 0 < u.bytes := by cases u <;> decide

/-- Units are powers of two, so sizes can be divided by them without rounding. -/
theorem exists_bytes_eq (u : SizeUnit) : ∃ k ≤ 1074, u.bytes = 2 ^ k := by
  cases u with
  | byte => exact ⟨0, by decide, rfl⟩
  | kibibyte => exact ⟨10, by decide, rfl⟩
  | mebibyte => exact ⟨20, by decide, rfl⟩

theorem ofSymbol?_symbol (u : SizeUnit) : ofSymbol? u.symbol = some u := by cases u <;> decide

theorem ends_symbol (u : SizeUnit) : FixedDecimal.Ends u.symbol := by
  cases u <;> rintro c ⟨⟩ <;> decide

end SizeUnit

/-- A number and its unit. -/
structure SizeReading where
  unit : SizeUnit
  number : FixedDecimal
  deriving DecidableEq, Repr

namespace SizeReading

/-- The number of bytes, exactly. -/
def toBytes (r : SizeReading) : ℚ := r.number.toRat * r.unit.bytes

/-- The bytes that one more in the last digit stands for. -/
def lastDigit (r : SizeReading) : ℚ := r.unit.bytes / 10 ^ r.number.places

/-- Read a numeral with the symbol of a unit behind it. -/
def ofText? (text : String) : Option SizeReading := do
  let (number, rest) ← FixedDecimal.read? text.toList
  let unit ← SizeUnit.ofSymbol? rest
  return ⟨unit, number⟩

end SizeReading

/-! ### Sizes in a unit -/

namespace SizeUnit

/-- The size `n` in a unit, rounded to the last place. -/
def shown (u : SizeUnit) (n : Nat) : SizeReading :=
  ⟨u, u.places, roundHalfEven (n * 10 ^ u.places) u.bytes⟩

/-- The text of a size in a unit. -/
def text (u : SizeUnit) (n : Nat) : List Char := fixedRatio u.places n u.bytes ++ u.symbol

variable (u : SizeUnit) {m n : Nat}

theorem ofText?_text (n : Nat) :
    SizeReading.ofText? (String.ofList (u.text n)) = some (u.shown n) := by
  unfold SizeReading.ofText?
  rw [String.toList_ofList, text, fixedRatio,
    FixedDecimal.read?_placed_append _ _ u.ends_symbol]
  simp only [Option.bind_eq_bind, Option.bind_some, ofSymbol?_symbol, shown]
  rfl

theorem toBytes_shown (n : Nat) : (u.shown n).toBytes =
    (roundHalfEven (n * 10 ^ u.places) u.bytes * u.bytes : Nat) / 10 ^ u.places := by
  rw [SizeReading.toBytes, FixedDecimal.toRat, shown]
  push_cast
  ring

theorem lastDigit_shown (n : Nat) : (u.shown n).lastDigit = u.bytes / 10 ^ u.places := rfl

/-- In one unit a larger size is never shown as a smaller one. -/
theorem toBytes_shown_mono (h : m ≤ n) : (u.shown m).toBytes ≤ (u.shown n).toBytes := by
  rw [toBytes_shown, toBytes_shown]
  gcongr
  refine roundHalfEven_mono u.bytes_pos u.bytes_pos ?_
  gcongr

/-- A whole number of units is shown as it is. -/
theorem toBytes_shown_mul (k : Nat) : (u.shown (k * u.bytes)).toBytes = (k * u.bytes : Nat) := by
  have hround : roundHalfEven (k * u.bytes * 10 ^ u.places) u.bytes = k * 10 ^ u.places := by
    rw [mul_right_comm]
    exact roundHalfEven_mul_right _ _ u.bytes_pos
  rw [toBytes_shown, hround]
  push_cast
  field_simp

/-- What is shown is within half a unit of the last place. -/
theorem abs_toBytes_shown_sub_le (n : Nat) :
    |(u.shown n).toBytes - n| ≤ (u.shown n).lastDigit / 2 := by
  have hup := two_mul_roundHalfEven_le (n * 10 ^ u.places) u.bytes
  have hdown := le_two_mul_roundHalfEven (n * 10 ^ u.places) u.bytes u.bytes_pos
  rw [toBytes_shown, lastDigit_shown]
  generalize roundHalfEven (n * 10 ^ u.places) u.bytes * u.bytes = total at hup hdown
  have hup' : 2 * (total : ℚ) ≤ 2 * (n * 10 ^ u.places) + u.bytes := by exact_mod_cast hup
  have hdown' : 2 * (n * 10 ^ u.places : ℚ) ≤ 2 * total + u.bytes := by exact_mod_cast hdown
  have hpow : (0 : ℚ) < 10 ^ u.places := by positivity
  calc |(total : ℚ) / 10 ^ u.places - n|
    _ = |((total : ℚ) - n * 10 ^ u.places) / 10 ^ u.places| := by
      rw [sub_div, mul_div_cancel_right₀ _ hpow.ne']
    _ = |(total : ℚ) - n * 10 ^ u.places| / 10 ^ u.places := by rw [abs_div, abs_of_pos hpow]
    _ ≤ u.bytes / 2 / 10 ^ u.places := by
      gcongr
      rw [abs_le]
      constructor <;> linarith
    _ = u.bytes / 10 ^ u.places / 2 := by ring

/-! ### The unit of a size -/

/-- Two sizes are shown in one unit, or the border between their units stands between them. -/
theorem of_eq_or_border (h : m ≤ n) : of m = of n ∨
    m ≤ 1024 * (of m).bytes ∧ 1024 * (of m).bytes ≤ (of n).bytes ∧ (of n).bytes ≤ n := by
  unfold of
  split_ifs <;> simp only [bytes, true_or, false_or] <;> omega

/-- A larger size is never shown as a smaller one. -/
theorem toBytes_shown_of_mono (h : m ≤ n) :
    ((of m).shown m).toBytes ≤ ((of n).shown n).toBytes := by
  rcases of_eq_or_border h with hunit | ⟨hlow, hborder, hhigh⟩
  · rw [hunit]
    exact (of n).toBytes_shown_mono h
  · -- the border is a whole number of both units, and both show it as it is
    calc ((of m).shown m).toBytes
      _ ≤ ((of m).shown (1024 * (of m).bytes)).toBytes := (of m).toBytes_shown_mono hlow
      _ = (1024 * (of m).bytes : Nat) := (of m).toBytes_shown_mul 1024
      _ ≤ (1 * (of n).bytes : Nat) := by
        rw [one_mul]
        exact_mod_cast hborder
      _ = ((of n).shown (1 * (of n).bytes)).toBytes := ((of n).toBytes_shown_mul 1).symm
      _ ≤ ((of n).shown n).toBytes := (of n).toBytes_shown_mono (by rwa [one_mul])

/-- In kibibytes and mebibytes the tolerance is half a unit of the last place. -/
theorem tolerance_eq (hunit : u ≠ .byte) (n : Nat) : u.tolerance = (u.shown n).lastDigit / 2 := by
  rw [lastDigit_shown]
  cases u with
  | byte => exact absurd rfl hunit
  | kibibyte => norm_num [tolerance, bytes, places]
  | mebibyte => norm_num [tolerance, bytes, places]

theorem abs_toBytes_shown_sub_le_tolerance (n : Nat) :
    |(u.shown n).toBytes - n| ≤ u.tolerance := by
  by_cases hunit : u = .byte
  · -- a byte is the whole unit, so its numbers are shown as they are
    have hexact := toBytes_shown_mul .byte n
    simp only [bytes, mul_one] at hexact
    rw [hunit, hexact, sub_self, abs_zero]
    rfl
  · rw [u.tolerance_eq hunit n]
    exact u.abs_toBytes_shown_sub_le n

end SizeUnit

/-! ### Texts -/

/-- A size in range is divided without rounding, so its text is that of the exact quotient. -/
theorem map_bytesPer (u : SizeUnit) {n : Nat} (hn : n < 2 ^ 53) (hpos : 0 < n) :
    (bytesPer n u.bytes).map (fun x => String.ofList (x.fixed u.places) ++ String.ofList u.symbol) =
      .ok (String.ofList (u.text n)) := by
  obtain ⟨k, hk, hbytes⟩ := u.exists_bytes_eq
  have hfinite := Binary64.isFinite_ofRatio
    (Binary64.ofRatio_ne_infinite hn (by decide) u.bytes_pos)
  have hvalue : Binary64.value (.ofRatio false n u.bytes) = n / u.bytes := by
    rw [hbytes]
    exact Binary64.value_ofRatio_two_pow hn hk
  have hfixed := Binary64.fixed_eq_fixedRatio u.places hfinite hpos u.bytes_pos hvalue
  have hquotient : bytesPer n u.bytes = .ok (.ofRatio false n u.bytes) := by
    obtain ⟨a, c, e, hx⟩ := hfinite
    unfold bytesPer
    rw [decide_eq_false (Int.not_lt.mpr (Int.natCast_nonneg n)), Int.natAbs_natCast, hx]
  rw [hquotient, Except.map, hfixed, SizeUnit.text, String.ofList_append]

/-- The text of a size is its text in its unit. -/
theorem formatSize_eq {n : Nat} (hn : n < 2 ^ 53) :
    formatSize n = .ok (String.ofList ((SizeUnit.of n).text n)) := by
  unfold formatSize SizeUnit.of
  by_cases hsmall : n < 1024
  · -- bytes are written as an integer, without a division
    have hunits : roundHalfEven (n * 10 ^ 0) 1 = n := roundHalfEven_mul_right n 1 Nat.one_pos
    have hdigits : SizeUnit.byte.text n = Nat.toDigits 10 n ++ ['B'] := by
      rw [SizeUnit.text, SizeUnit.places, SizeUnit.bytes, SizeUnit.symbol, fixedRatio, hunits,
        placed_zero]
    rw [if_pos (by exact_mod_cast hsmall), if_pos hsmall, hdigits, String.ofList_append,
      ← Json.toList_toString_ofNat, String.ofList_toList]
  · have hpos : 0 < n := by omega
    rw [if_neg (by exact_mod_cast hsmall), if_neg hsmall]
    by_cases hmiddle : n < 1024 * 1024
    · rw [if_pos (by exact_mod_cast hmiddle), if_pos hmiddle]
      exact map_bytesPer .kibibyte hn hpos
    · rw [if_neg (by exact_mod_cast hmiddle), if_neg hmiddle]
      exact map_bytesPer .mebibyte hn hpos

/-- Texts of sizes below `2 ^ 53` are read back in the order of the sizes. What is read differs from
the size by no more than half a unit of the last digit, and not at all in bytes. -/
theorem sizes_read_back_in_order {m n : Nat} (hmn : m ≤ n) (hn : n < 2 ^ 53) :
    ∃ s t r r', formatSize m = .ok s ∧ formatSize n = .ok t ∧
      SizeReading.ofText? s = some r ∧ SizeReading.ofText? t = some r' ∧
      r.toBytes ≤ r'.toBytes ∧
      |r'.toBytes - n| ≤ r'.unit.tolerance ∧
      (r'.unit ≠ .byte → r'.unit.tolerance = r'.lastDigit / 2) ∧
      r'.unit = SizeUnit.of n := by
  refine ⟨_, _, _, _, formatSize_eq (hmn.trans_lt hn), formatSize_eq hn,
    SizeUnit.ofText?_text _ m, SizeUnit.ofText?_text _ n, SizeUnit.toBytes_shown_of_mono hmn,
    SizeUnit.abs_toBytes_shown_sub_le_tolerance _ n, ?_, rfl⟩
  intro hunit
  exact SizeUnit.tolerance_eq _ hunit n

/-- On both sides of the border between two units: what is rounded up below it and what is rounded
down above it are shown as the same number of bytes. -/
theorem sizes_read_back_in_order_border :
    ∃ r r', formatSize 1048575 = .ok "1024.0KB" ∧ formatSize 1053818 = .ok "1.00MB" ∧
      SizeReading.ofText? "1024.0KB" = some r ∧ SizeReading.ofText? "1.00MB" = some r' ∧
      r.toBytes ≤ r'.toBytes ∧ r.toBytes = 1048576 ∧ r'.toBytes = 1048576 ∧
      |r'.toBytes - 1053818| ≤ r'.unit.tolerance ∧ r'.unit = .mebibyte := by
  obtain ⟨s, t, r, r', hs, ht, hr, hr', hle, herror, -, -⟩ :=
    sizes_read_back_in_order (m := 1048575) (n := 1053818) (by decide) (by decide)
  have hlow : formatSize 1048575 = .ok "1024.0KB" := Outcome.eq_ok_of_toOption (by decide +kernel)
  have hhigh : formatSize 1053818 = .ok "1.00MB" := Outcome.eq_ok_of_toOption (by decide +kernel)
  obtain rfl : s = "1024.0KB" := Except.ok.inj (hs.symm.trans hlow)
  obtain rfl : t = "1.00MB" := Except.ok.inj (ht.symm.trans hhigh)
  have hread : SizeReading.ofText? "1024.0KB" = some ⟨.kibibyte, 1, 10240⟩ := by decide +kernel
  have hread' : SizeReading.ofText? "1.00MB" = some ⟨.mebibyte, 2, 100⟩ := by decide +kernel
  obtain rfl := Option.some.inj (hr.symm.trans hread)
  obtain rfl := Option.some.inj (hr'.symm.trans hread')
  refine ⟨_, _, hlow, hhigh, hread, hread', hle, ?_, ?_, by exact_mod_cast herror, rfl⟩
  · norm_num [SizeReading.toBytes, FixedDecimal.toRat, SizeUnit.bytes]
  · norm_num [SizeReading.toBytes, FixedDecimal.toRat, SizeUnit.bytes]

end ScriptHealth
