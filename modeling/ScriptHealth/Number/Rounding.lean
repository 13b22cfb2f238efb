/-!
# Rounding quotients

A quotient of natural numbers is rounded to the nearest natural number, and a half goes to the
even neighbour. All conversions between decimal and binary fractions rest on this one function.

## Main results

* `two_mul_roundHalfEven_le`, `le_two_mul_roundHalfEven`: the result is within half a unit
* `roundHalfEven_mul_right`: an exact quotient is kept
-/

namespace ScriptHealth.Number

/-- The natural number nearest to `num / den`; a half goes to the even neighbour. -/
def roundHalfEven (num den : Nat) : Nat :=
  let q := num / den
  let r := num % den
  if 2 * r < den then q
  else if den < 2 * r then q + 1
  else q + q % 2

/-- An exact quotient is kept. -/
theorem roundHalfEven_mul_right (q den : Nat) (h : 0 < den) : roundHalfEven (q * den) den = q := by
  simp [roundHalfEven, Nat.mul_div_cancel _ h, h]

/-- Rounding never goes up by more than half a unit. -/
theorem two_mul_roundHalfEven_le (num den : Nat) :
    2 * (roundHalfEven num den * den) ≤ 2 * num + den := by
  have hdiv : den * (num / den) + num % den = num := Nat.div_add_mod num den
  have hcomm : num / den * den = den * (num / den) := Nat.mul_comm _ _
  unfold roundHalfEven
  dsimp only
  split
  · omega
  · split
    · rw [Nat.add_mul]; omega
    · rcases Nat.mod_two_eq_zero_or_one (num / den) with h | h <;>
        rw [h, Nat.add_mul] <;> omega

/-- Rounding never goes down by more than half a unit. -/
theorem le_two_mul_roundHalfEven (num den : Nat) (h : 0 < den) :
    2 * num ≤ 2 * (roundHalfEven num den * den) + den := by
  have hdiv : den * (num / den) + num % den = num := Nat.div_add_mod num den
  have hcomm : num / den * den = den * (num / den) := Nat.mul_comm _ _
  have hlt : num % den < den := Nat.mod_lt _ h
  unfold roundHalfEven
  dsimp only
  split
  · omega
  · split
    · rw [Nat.add_mul]; omega
    · rcases Nat.mod_two_eq_zero_or_one (num / den) with h | h <;>
        rw [h, Nat.add_mul] <;> omega

end ScriptHealth.Number
