/-!
# Bytes and text

Files hold bytes; text is read from them as UTF-8. The decoder is a machine over bytes: a lead byte
announces how many bytes follow and which range the next one has to lie in, and a byte outside
that range ends the sequence as malformed and is looked at again as a lead byte.

## Main definitions

* `Utf8.units` the sequence of characters, with `none` for each malformed run
* `Utf8.decode?` succeeds when no run is malformed
* `Utf8.decodeLossy` puts the replacement character for each malformed run
-/

namespace ScriptHealth.Utf8

/-- Bytes still expected in the current sequence: how many, the range of the next one, and the
bits collected so far. -/
structure Pending where
  missing : Nat
  low : Nat
  high : Nat
  bits : Nat

/-- What a lead byte announces: a finished character, a sequence to be continued, or nothing. -/
inductive Lead where
  | whole (c : Char)
  | sequence (p : Pending)
  | malformed

/-- Read a lead byte. The first continuation byte has a narrower range after the lead bytes whose
full range would allow overlong forms, surrogates, or values beyond the last code point. -/
def lead (b : Nat) : Lead :=
  if b < 0x80 then .whole (Char.ofNat b)
  else if b < 0xC2 then .malformed
  else if b < 0xE0 then .sequence ⟨1, 0x80, 0xBF, b - 0xC0⟩
  else if b < 0xF0 then
    .sequence ⟨2, if b = 0xE0 then 0xA0 else 0x80, if b = 0xED then 0x9F else 0xBF, b - 0xE0⟩
  else if b < 0xF5 then
    .sequence ⟨3, if b = 0xF0 then 0x90 else 0x80, if b = 0xF4 then 0x8F else 0xBF, b - 0xF0⟩
  else .malformed

/-- The machine between two bytes: units found so far, latest first, and the open sequence. -/
structure Machine where
  found : List (Option Char) := []
  pending : Option Pending := none

/-- Read a byte as a lead byte. -/
def Machine.start (m : List (Option Char)) (b : Nat) : Machine :=
  match lead b with
  | .whole c => ⟨some c :: m, none⟩
  | .sequence p => ⟨m, some p⟩
  | .malformed => ⟨none :: m, none⟩

/-- Read one byte. -/
def Machine.step (m : Machine) (byte : UInt8) : Machine :=
  let b := byte.toNat
  match m.pending with
  | none => Machine.start m.found b
  | some p =>
    if p.low ≤ b ∧ b ≤ p.high then
      let bits := p.bits * 64 + (b - 0x80)
      if p.missing = 1 then ⟨some (Char.ofNat bits) :: m.found, none⟩
      else ⟨m.found, some ⟨p.missing - 1, 0x80, 0xBF, bits⟩⟩
    else Machine.start (none :: m.found) b

/-- End of input: an open sequence is malformed. -/
def Machine.finish (m : Machine) : List (Option Char) :=
  match m.pending with
  | none => m.found.reverse
  | some _ => (none :: m.found).reverse

/-- The characters of a byte sequence, with `none` for each malformed run. -/
def units (bytes : List UInt8) : List (Option Char) :=
  (bytes.foldl Machine.step {}).finish

/-- The replacement character, which stands for a malformed run. -/
def replacement : Char := Char.ofNat 0xFFFD

/-- Decode, with the replacement character for each malformed run. -/
def decodeLossy (bytes : List UInt8) : List Char := (units bytes).map (·.getD replacement)

/-- Decode bytes that are well formed throughout. -/
def decode? (bytes : List UInt8) : Option (List Char) :=
  let us := units bytes
  if us.all Option.isSome then some (us.filterMap id) else none

end ScriptHealth.Utf8
