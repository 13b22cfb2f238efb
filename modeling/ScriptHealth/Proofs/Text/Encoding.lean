import ScriptHealth.Proofs.Text.LineEnd

/-!
# Texts as bytes

Decoding undoes encoding: the bytes of a character lead the decoder from a closed state to a closed
state and add that character, whatever was found before. So bytes that are a text stay one when the
bytes of a text are written behind them, and both texts are read one behind the other.

## Main results

* `Utf8.foldl_step_encodeChar` — the bytes of one character
* `Utf8.decode?_eq_some_iff` — bytes are a text if the decoder ends in a closed state
* `Utf8.decode?_append_toUTF8` — a text written behind a text
-/

namespace ScriptHealth.Utf8

open Machine

/-! ### One character -/

section Step

variable {found : List (Option Char)} {x missing low high bits : Nat}

theorem toNat_ofNat_of_lt (hx : x < 256) : (UInt8.ofNat x).toNat = x := by
  rw [UInt8.toNat_ofNat', Nat.mod_eq_of_lt hx]

/-- A byte that opens a sequence. -/
theorem step_opening {p : Pending} (hx : x < 256) (h : lead x = .sequence p) :
    step ⟨found, none⟩ (UInt8.ofNat x) = ⟨found, some p⟩ := by
  simp only [step, start, toNat_ofNat_of_lt hx, h]

/-- A byte in the middle of a sequence. -/
theorem step_middle (hx : x < 256) (hlow : low ≤ x) (hhigh : x ≤ high) (hmissing : missing ≠ 1) :
    step ⟨found, some ⟨missing, low, high, bits⟩⟩ (UInt8.ofNat x) =
      ⟨found, some ⟨missing - 1, 0x80, 0xBF, bits * 64 + (x - 0x80)⟩⟩ := by
  simp only [step, toNat_ofNat_of_lt hx, if_pos (And.intro hlow hhigh), if_neg hmissing]

/-- The last byte of a sequence. -/
theorem step_closing {c : Char} (hx : x < 256) (hlow : low ≤ x) (hhigh : x ≤ high)
    (hc : bits * 64 + (x - 0x80) = c.toNat) :
    step ⟨found, some ⟨1, low, high, bits⟩⟩ (UInt8.ofNat x) = ⟨some c :: found, none⟩ := by
  simp only [step, toNat_ofNat_of_lt hx, if_pos (And.intro hlow hhigh), hc, Char.ofNat_toNat,
    if_true]

end Step

theorem lead_two {n : Nat} (h : 2 ≤ n) (h' : n < 0x20) :
    lead (n + 0xC0) = .sequence ⟨1, 0x80, 0xBF, n⟩ := by
  rw [lead, if_neg (by omega), if_neg (by omega), if_pos (by omega), Nat.add_sub_cancel]

theorem lead_three {n : Nat} (h : n < 0x10) :
    lead (n + 0xE0) =
      .sequence ⟨2, if n = 0 then 0xA0 else 0x80, if n = 0xD then 0x9F else 0xBF, n⟩ := by
  rw [lead, if_neg (by omega), if_neg (by omega), if_neg (by omega), if_pos (by omega),
    Nat.add_sub_cancel]
  simp

theorem lead_four {n : Nat} (h : n < 5) :
    lead (n + 0xF0) =
      .sequence ⟨3, if n = 0 then 0x90 else 0x80, if n = 4 then 0x8F else 0xBF, n⟩ := by
  rw [lead, if_neg (by omega), if_neg (by omega), if_neg (by omega), if_neg (by omega),
    if_pos (by omega), Nat.add_sub_cancel]
  simp

/-- The bytes of a character are read as the character. -/
theorem foldl_step_encodeChar (found : List (Option Char)) (c : Char) :
    (String.utf8EncodeChar c).foldl step ⟨found, none⟩ = ⟨some c :: found, none⟩ := by
  have hvalid : c.toNat < 0xD800 ∨ 0xDFFF < c.toNat ∧ c.toNat < 0x110000 := c.valid
  have hval : c.val.toNat = c.toNat := rfl
  unfold String.utf8EncodeChar
  simp only [hval]
  -- the number of the character says how many bytes there are
  split
  · have hbyte := toNat_ofNat_of_lt (x := c.toNat) (by omega)
    rw [List.foldl_cons, List.foldl_nil, step_ascii (fun p hp => by cases hp) (by omega), hbyte,
      Char.ofNat_toNat]
    rfl
  · split
    · simp only [List.foldl_cons, List.foldl_nil]
      rw [step_opening (by omega) (lead_two (by omega) (by omega)),
        step_closing (c := c) (by omega) (by omega) (by omega) (by omega)]
    · split
      · simp only [List.foldl_cons, List.foldl_nil]
        rw [step_opening (by omega) (lead_three (by omega)),
          step_middle (by omega) (by split <;> omega) (by split <;> omega) (by omega),
          step_closing (c := c) (by omega) (by omega) (by omega) (by omega)]
      · simp only [List.foldl_cons, List.foldl_nil]
        rw [step_opening (by omega) (lead_four (by omega)),
          step_middle (by omega) (by split <;> omega) (by split <;> omega) (by omega),
          step_middle (by omega) (by omega) (by omega) (by omega),
          step_closing (c := c) (by omega) (by omega) (by omega) (by omega)]

/-! ### Texts -/

theorem foldl_step_encode (found : List (Option Char)) (s : List Char) :
    (s.flatMap String.utf8EncodeChar).foldl step ⟨found, none⟩ =
      ⟨(s.map some).reverse ++ found, none⟩ := by
  induction s generalizing found with
  | nil => rfl
  | cons c s ih =>
    rw [List.flatMap_cons, List.foldl_append, foldl_step_encodeChar, ih]
    simp

theorem map_some_filterMap {us : List (Option Char)} (h : us.all Option.isSome = true) :
    (us.filterMap id).map some = us := by
  induction us with
  | nil => rfl
  | cons u us ih =>
    rw [List.all_cons, Bool.and_eq_true] at h
    cases u with
    | none => cases h.1
    | some c => exact congrArg (some c :: ·) (ih h.2)

/-- Bytes are a text exactly if the decoder ends in a closed state and has found nothing
malformed. -/
theorem decode?_eq_some_iff {bytes : List UInt8} {s : List Char} :
    decode? bytes = some s ↔ bytes.foldl step {} = ⟨(s.map some).reverse, none⟩ := by
  rw [decode?, units, finish_eq]
  generalize bytes.foldl step {} = m
  obtain ⟨found, pending⟩ := m
  constructor
  · intro h
    obtain ⟨hall, hs⟩ := Option.ite_none_right_eq_some.mp h
    cases pending with
    | some p => simp [closed] at hall
    | none =>
      have hfound : found.reverse = s.map some := by
        rw [← Option.some.inj hs]
        exact (map_some_filterMap hall).symm
      rw [← hfound, List.reverse_reverse]
  · intro h
    obtain ⟨rfl, rfl⟩ := Machine.mk.inj h
    simp [closed]

theorem data_toUTF8 (s : String) :
    s.toUTF8.data.toList = s.toList.flatMap String.utf8EncodeChar := by
  rw [String.toUTF8_eq_toByteArray, ← String.utf8Encode_toList, List.utf8Encode,
    List.toList_data_toByteArray]

/-- A text that is written behind a text is read behind it. -/
theorem decode?_append_toUTF8 {bytes : List UInt8} {text : List Char}
    (h : decode? bytes = some text) (s : String) :
    decode? (bytes ++ s.toUTF8.data.toList) = some (text ++ s.toList) := by
  rw [decode?_eq_some_iff] at h ⊢
  rw [List.foldl_append, h, data_toUTF8, foldl_step_encode, List.map_append, List.reverse_append]

end ScriptHealth.Utf8
