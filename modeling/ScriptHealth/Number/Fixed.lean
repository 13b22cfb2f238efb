import ScriptHealth.Number.Binary64

/-!
# Texts with a fixed number of places

The exact value is rounded to the wanted number of decimal places; a half goes to the even
neighbour.
-/

namespace ScriptHealth.Number

open scoped Plain

/-- A natural number of units of `10 ^ -places`, written with that many places. -/
def placed (places units : Nat) : List Char :=
  let ds := Nat.toDigits 10 units
  let padded := List.replicate (places + 1 - ds.length) '0' ++ ds
  let whole := padded.length - places
  if places = 0 then padded else padded.take whole ++ '.' :: padded.drop whole

/-- The quotient `num / den` with a fixed number of places. -/
def fixedRatio (places num den : Nat) : List Char :=
  placed places (roundHalfEven (num * 10 ^ places) den)

/-- A floating-point number with a fixed number of places. -/
def Binary64.fixed (places : Nat) : Binary64 → List Char
  | .nan => ['n', 'a', 'n']
  | .infinite a => (if a then ['-'] else []) ++ ['i', 'n', 'f']
  | .finite a c e =>
    (if a then ['-'] else []) ++ fixedRatio places (c * 2 ^ e.toNat) (2 ^ (-e).toNat)

end ScriptHealth.Number
