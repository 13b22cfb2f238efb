import ScriptHealth.Number.Binary64
import ScriptHealth.Fault

/-!
# Numbers of mixed kinds

Weights may be given as switches, integers or fractions. Arithmetic keeps the kind where it can: a
switch counts as 0 or 1, integers stay exact, and a fraction turns the result into a fraction.
Comparison is always by exact value.

## Main definitions

* `Quantity.lt` compares by value
* `Quantity.add`, `Quantity.sub`, `Quantity.times` are the arithmetic operations
* `Quantity.floor` is the greatest integer below a quantity
-/

namespace ScriptHealth

open Number

/-- A switch, an integer or a fraction. -/
inductive Quantity where
  | switch (b : Bool)
  | int (n : Int)
  | real (x : Binary64)
  deriving DecidableEq, Repr, Inhabited

namespace Quantity

/-- The number in a value. -/
def ofValue? : Value → Option Quantity
  | .bool b => some (.switch b)
  | .int n => some (.int n)
  | .real x => some (.real x)
  | _ => none

/-- The value of a quantity. -/
def toValue : Quantity → Value
  | .switch b => .bool b
  | .int n => .int n
  | .real x => .real x

/-- The integer of a switch or an integer, and the fraction otherwise. -/
def exact : Quantity → Int ⊕ Binary64
  | .switch b => .inl (if b then 1 else 0)
  | .int n => .inl n
  | .real x => .inr x

/-- Compare by value; there is no answer when one side is not a number. -/
def cmp (a b : Quantity) : Option Ordering :=
  match a.exact, b.exact with
  | .inl m, .inl n => some (compare m n)
  | .inl m, .inr y => (y.cmpInt m).map Ordering.swap
  | .inr x, .inl n => x.cmpInt n
  | .inr x, .inr y => x.cmp y

/-- Whether `a` is smaller than `b`. -/
def lt (a b : Quantity) : Bool := a.cmp b == some .lt

/-- Whether `a` is at most `b`. -/
def le (a b : Quantity) : Bool := a.cmp b == some .lt || a.cmp b == some .eq

/-- The fraction nearest to an integer, if it is in range. -/
def toReal (n : Int) : Except Fault Binary64 :=
  match Binary64.ofInt n with
  | .infinite _ => .error (.outOfRange "int too large to convert to float")
  | x => .ok x

/-- Apply an operation to integers, or to fractions if one side is a fraction. -/
def combine (onInt : Int → Int → Int) (onReal : Binary64 → Binary64 → Binary64)
    (a b : Quantity) : Except Fault Quantity :=
  match a.exact, b.exact with
  | .inl m, .inl n => .ok (.int (onInt m n))
  | .inl m, .inr y => do .ok (.real (onReal (← toReal m) y))
  | .inr x, .inl n => do .ok (.real (onReal x (← toReal n)))
  | .inr x, .inr y => .ok (.real (onReal x y))

/-- The sum. -/
def add : Quantity → Quantity → Except Fault Quantity := combine (· + ·) Binary64.add

/-- The difference. -/
def sub : Quantity → Quantity → Except Fault Quantity := combine (· - ·) Binary64.sub

/-- The product with a count. -/
def times (count : Nat) (q : Quantity) : Except Fault Quantity :=
  combine (· * ·) Binary64.mul (.int count) q

/-- The first quantity, unless the second is smaller. -/
def min (a b : Quantity) : Quantity := if b.lt a then b else a

/-- The greatest integer below a quantity. -/
def floor (q : Quantity) : Except Fault Int :=
  match q.exact with
  | .inl n => .ok n
  | .inr .nan => .error (.badValue "cannot convert float NaN to integer")
  | .inr (.infinite _) => .error (.outOfRange "cannot convert float infinity to integer")
  | .inr x => .ok (x.floor?.getD 0)

end Quantity

end ScriptHealth
