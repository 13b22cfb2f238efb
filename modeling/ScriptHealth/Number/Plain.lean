/-!
# Powers and sums of plain numbers

Where algebra is in scope, the powers of numbers and the zero that sums start from can be found in
more than one way, all of them equal. Definitions that are made with `Number.Plain` open always mean
the powers and the zero of the numbers themselves.
-/

namespace ScriptHealth.Number.Plain

scoped instance natPower : Pow Nat Nat := instPowNat

scoped instance intPower : Pow Int Nat := instPowNat

scoped instance natZero : Zero Nat := Zero.ofOfNat0

end ScriptHealth.Number.Plain
