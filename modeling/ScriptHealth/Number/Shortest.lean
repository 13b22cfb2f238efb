import ScriptHealth.Number.Binary64

/-!
# Shortest decimal text

The text of a floating-point number has the fewest digits that read back as the same number, and
of those the nearest. It is positional for scientific exponents from -4 to 15 and scientific
beyond, and always shows a fraction or an exponent.
-/

namespace ScriptHealth.Number.Binary64

open scoped Plain

/-- A positive decimal `digits * 10 ^ exponent`. -/
structure Decimal where
  digits : Nat
  exponent : Int

/-- Whether `c * 2 ^ e` is at least `10 ^ k`. -/
def reachesPower (c : Nat) (e k : Int) : Bool :=
  10 ^ k.toNat * 2 ^ (-e).toNat ≤ c * 2 ^ e.toNat * 10 ^ (-k).toNat

/-- The exponent of the leading decimal digit of `c * 2 ^ e`. -/
def leadingExponent (c : Nat) (e : Int) : Int :=
  let guess := ((c.log2 : Int) + e) * 30103 / 100000
  if reachesPower c e (guess + 1) then guess + 1
  else if reachesPower c e guess then guess
  else guess - 1

/-- The value `c * 2 ^ e` as a quotient, in units of `10 ^ k`. -/
def inUnits (c : Nat) (e k : Int) : Nat × Nat :=
  (c * 2 ^ e.toNat * 10 ^ (-k).toNat, 2 ^ (-e).toNat * 10 ^ k.toNat)

/-- The neighbours of `c * 2 ^ e` on the grid of `10 ^ k`, nearer first. -/
def neighbours (c : Nat) (e k : Int) : List Decimal :=
  let (num, den) := inUnits c e k
  let q := num / den
  let r := num % den
  if 2 * r < den ∨ (2 * r = den ∧ q % 2 = 0) then [⟨q, k⟩, ⟨q + 1, k⟩] else [⟨q + 1, k⟩, ⟨q, k⟩]

/-- The nearest decimal with the fewest digits that reads back as `c * 2 ^ e`. -/
def shortestDecimal (c : Nat) (e : Int) : Decimal :=
  let lead := leadingExponent c e
  let grids := (List.range 17).map fun n : Nat => lead - n
  let candidates := grids.flatMap (neighbours c e)
  match candidates.find? fun d => ofDecimal false d.digits d.exponent = .finite false c e with
  | some d => d
  | none => ⟨c, e⟩

/-- Remove the zeros at the end of a digit text; at least one digit stays. -/
def stripZeros (ds : List Char) : List Char :=
  match (ds.reverse.dropWhile (· == '0')).reverse with
  | [] => ['0']
  | kept => kept

/-- A decimal exponent with its sign and at least two digits. -/
def exponentText (k : Int) : List Char :=
  let ds := Nat.toDigits 10 k.natAbs
  'e' :: (if k < 0 then '-' else '+') :: (if ds.length < 2 then '0' :: ds else ds)

/-- Write digits whose first one stands at `10 ^ k`. -/
def layout (ds : List Char) (k : Int) : List Char :=
  if -4 ≤ k ∧ k < 16 then
    if k < 0 then '0' :: '.' :: (List.replicate (-k - 1).toNat '0' ++ ds)
    else
      let whole := (k + 1).toNat
      if ds.length ≤ whole then ds ++ List.replicate (whole - ds.length) '0' ++ ['.', '0']
      else ds.take whole ++ '.' :: ds.drop whole
  else
    match ds with
    | [d] => d :: exponentText k
    | d :: rest => d :: '.' :: (rest ++ exponentText k)
    | [] => exponentText k

/-- The text of a number. -/
def text : Binary64 → List Char
  | .nan => ['n', 'a', 'n']
  | .infinite a => (if a then ['-'] else []) ++ ['i', 'n', 'f']
  | .finite a c e =>
    let sign := if a then ['-'] else []
    if c = 0 then sign ++ ['0', '.', '0']
    else
      let d := shortestDecimal c e
      let ds := Nat.toDigits 10 d.digits
      sign ++ layout (stripZeros ds) (d.exponent + ds.length - 1)

end ScriptHealth.Number.Binary64
