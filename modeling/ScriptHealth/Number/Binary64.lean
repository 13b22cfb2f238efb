import ScriptHealth.Number.Plain
import ScriptHealth.Number.Rounding

/-!
# Binary floating-point numbers of 64 bits

A finite number is a sign, a coefficient below `2 ^ 53` and an exponent of two that is at least
`-1074`. Every operation computes the exact result in integers and rounds it once, to the nearest
number and to the even coefficient on a tie. Results beyond the largest finite number become
infinite.

## Main definitions

* `Binary64.ofRatio` rounds a quotient of natural numbers
* `Binary64.add`, `sub`, `mul` are the rounded exact operations
* `Binary64.cmp` compares exactly and has no answer for a value that is not a number
-/

namespace ScriptHealth.Number

/-- A 64-bit binary floating-point number. The value of `finite s c e` is `± c * 2 ^ e`. -/
inductive Binary64 where
  | nan
  | infinite (negative : Bool)
  | finite (negative : Bool) (coefficient : Nat) (exponent : Int)
  deriving DecidableEq, Repr, Inhabited

namespace Binary64

open scoped Plain

/-- The least exponent. -/
def leastExponent : Int := -1074

/-- The greatest exponent of a finite number. -/
def greatestExponent : Int := 971

/-- The positive and the negative zero. -/
def zero (negative : Bool) : Binary64 := .finite negative 0 leastExponent

/-- Give a rounded coefficient of at most `2 ^ 53` its normal form. -/
def settle (negative : Bool) (coefficient : Nat) (exponent : Int) : Binary64 :=
  -- rounding up may have carried into a bit too many
  let (c, e) :=
    if coefficient = 2 ^ (53 : Nat) then (2 ^ (52 : Nat), exponent + 1)
    else (coefficient, exponent)
  if greatestExponent < e then .infinite negative
  else if c = 0 then zero negative
  else .finite negative c e

/-- The quotient `num / den` in units of `2 ^ e`, rounded. -/
def scaledRound (num den : Nat) (e : Int) : Nat :=
  if 0 ≤ e then roundHalfEven num (den * 2 ^ e.toNat) else roundHalfEven (num * 2 ^ (-e).toNat) den

/-- The quotient `num / den` in units of `2 ^ e`, rounded down. -/
def scaledFloor (num den : Nat) (e : Int) : Nat :=
  if 0 ≤ e then num / (den * 2 ^ e.toNat) else num * 2 ^ (-e).toNat / den

/-- The exponent at which `num / den` has a coefficient of 53 bits, or the least exponent. -/
def quotientExponent (num den : Nat) : Int :=
  -- the logarithms determine the exponent up to one
  let guess := max ((num.log2 : Int) - den.log2 - 53) leastExponent
  if 2 ^ (53 : Nat) ≤ scaledFloor num den guess then guess + 1 else guess

/-- The number nearest to `± num / den`, for a positive `den`. -/
def ofRatio (negative : Bool) (num den : Nat) : Binary64 :=
  if num = 0 then zero negative
  else
    let e := quotientExponent num den
    settle negative (scaledRound num den e) e

/-- The number nearest to `± m * 2 ^ e`. -/
def ofScaled (negative : Bool) (m : Nat) (e : Int) : Binary64 :=
  if 0 ≤ e then ofRatio negative (m * 2 ^ e.toNat) 1 else ofRatio negative m (2 ^ (-e).toNat)

/-- The number nearest to an integer. -/
def ofInt (n : Int) : Binary64 := ofRatio (n < 0) n.natAbs 1

/-- The number nearest to `± digits * 10 ^ e`. Far exponents are answered without computing the
power, so the work is bounded by the number of digits. -/
def ofDecimal (negative : Bool) (digits : Nat) (e : Int) : Binary64 :=
  if digits = 0 then zero negative
  else
    -- an estimate of the decimal exponent of the value, good enough to tell far from near
    let magnitude : Int := (digits.log2 : Int) * 30103 / 100000 + e
    if 400 < magnitude then .infinite negative
    else if magnitude < -400 then zero negative
    else if 0 ≤ e then ofRatio negative (digits * 10 ^ e.toNat) 1
    else ofRatio negative digits (10 ^ (-e).toNat)

/-- The coefficient with its sign. -/
def signed (negative : Bool) (c : Nat) : Int := if negative then -(c : Int) else c

/-- A coefficient at exponent `e`, written at the smaller exponent `low`. -/
def align (c : Int) (e low : Int) : Int := c * 2 ^ (e - low).toNat

/-- The rounded sum. Opposite values give the positive zero. -/
def add : Binary64 → Binary64 → Binary64
  | .nan, _ | _, .nan => .nan
  | .infinite a, .infinite b => if a = b then .infinite a else .nan
  | .infinite a, .finite .. => .infinite a
  | .finite .., .infinite b => .infinite b
  | .finite a c e, .finite b d f =>
    let low := min e f
    let total := align (signed a c) e low + align (signed b d) f low
    if total = 0 then zero (a && b) else ofScaled (total < 0) total.natAbs low

/-- The opposite number. -/
def neg : Binary64 → Binary64
  | .nan => .nan
  | .infinite a => .infinite !a
  | .finite a c e => .finite (!a) c e

/-- The rounded difference. -/
def sub (x y : Binary64) : Binary64 := add x (neg y)

/-- The rounded product. -/
def mul : Binary64 → Binary64 → Binary64
  | .nan, _ | _, .nan => .nan
  | .infinite a, .infinite b => .infinite (a != b)
  | .infinite a, .finite b d _ => if d = 0 then .nan else .infinite (a != b)
  | .finite a c _, .infinite b => if c = 0 then .nan else .infinite (a != b)
  | .finite a c e, .finite b d f => ofScaled (a != b) (c * d) (e + f)

/-- Compare two values of the form `c * 2 ^ e`. -/
def cmpScaled (c e d f : Int) : Ordering :=
  let low := min e f
  compare (align c e low) (align d f low)

/-- Compare by value; there is no answer when one side is not a number. -/
def cmp : Binary64 → Binary64 → Option Ordering
  | .nan, _ | _, .nan => none
  | .infinite a, .infinite b =>
    some (if a = b then .eq else if a then .lt else .gt)
  | .infinite a, .finite .. => some (if a then .lt else .gt)
  | .finite .., .infinite b => some (if b then .gt else .lt)
  | .finite a c e, .finite b d f => some (cmpScaled (signed a c) e (signed b d) f)

/-- Compare with an integer by value, without rounding the integer. -/
def cmpInt : Binary64 → Int → Option Ordering
  | .nan, _ => none
  | .infinite a, _ => some (if a then .lt else .gt)
  | .finite a c e, n => some (cmpScaled (signed a c) e n 0)

/-- The greatest integer below a finite value. -/
def floor? : Binary64 → Option Int
  | .finite a c e =>
    some (if 0 ≤ e then signed a c * 2 ^ e.toNat else (signed a c).fdiv (2 ^ (-e).toNat))
  | _ => none

/-- Whether the value is zero, of either sign. -/
def isZero : Binary64 → Bool
  | .finite _ c _ => c == 0
  | _ => false

end Binary64

end ScriptHealth.Number
