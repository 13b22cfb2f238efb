import ScriptHealth.Json.Reader
import ScriptHealth.Json.Writer
import ScriptHealth.Proofs.Text.Padded
import Mathlib.Tactic.IntervalCases

/-!
# Strings in JSON text

Every character of a string has one written form, and the reader takes exactly that form off the
text and gives the character back. The written form is the character itself, an escape of one
letter, an escaped unit of four hexadecimal digits, or a pair of such units.

## Main results

* `Json.hexUnit?_hexDigits` — four hexadecimal digits read back
* `Json.readString_escapeChar` — the written form of one character reads back
* `Json.readString_writeString` — a written string reads back
-/

namespace ScriptHealth

/-! ### Hexadecimal digits -/

namespace Text

/-- The last of at least two hexadecimal digits is that of the remainder. -/
theorem hexDigits_succ {width : Nat} (hwidth : 0 < width) (n : Nat) :
    hexDigits (width + 1) n = hexDigits width (n / 16) ++ [(n % 16).digitChar] :=
  zeroPadded_succ (by decide) hwidth n

theorem hexDigits_one {n : Nat} (hn : n < 16) : hexDigits 1 n = [n.digitChar] := by
  rw [hexDigits, Nat.toDigits_of_lt_base hn]
  rfl

/-- A unit is written with the digits of its four parts. -/
theorem hexDigits_four {n : Nat} (hn : n < 0x10000) :
    hexDigits 4 n = [(n / 16 / 16 / 16).digitChar, (n / 16 / 16 % 16).digitChar,
      (n / 16 % 16).digitChar, (n % 16).digitChar] := by
  rw [hexDigits_succ (by decide), hexDigits_succ (by decide), hexDigits_succ (by decide),
    hexDigits_one (by omega)]
  rfl

end Text

namespace Json

theorem hexValue?_digitChar {d : Nat} (hd : d < 16) : hexValue? d.digitChar = some d := by
  interval_cases d <;> rfl

/-- Four hexadecimal digits read back as the unit that they were written for. -/
theorem hexUnit?_hexDigits {n : Nat} (hn : n < 0x10000) (rest : List Char) :
    hexUnit? (Text.hexDigits 4 n ++ rest) = some (n, rest) := by
  rw [Text.hexDigits_four hn]
  simp only [List.cons_append, List.nil_append, hexUnit?]
  rw [hexValue?_digitChar (by omega), hexValue?_digitChar (by omega),
    hexValue?_digitChar (by omega), hexValue?_digitChar (by omega)]
  -- the four digits add up to the unit again
  have hsum : (n / 16 / 16 / 16 * 16 + n / 16 / 16 % 16) * 256 + n / 16 % 16 * 16 + n % 16 = n := by
    omega
  simp [hsum]

/-! ### Characters -/

/-- A code point that is a character stands for it. -/
theorem charOf_toNat (c : Char) : charOf c.toNat = c := by
  have hvalid : c.toNat.isValidChar := c.valid
  rw [charOf, if_pos hvalid, Char.ofNat_toNat]

/-- A character is no surrogate. -/
theorem not_surrogate (c : Char) : ¬ (0xD800 ≤ c.toNat ∧ c.toNat < 0xE000) := by
  have hvalid : c.toNat.isValidChar := c.valid
  rcases hvalid with h | h <;> omega

/-- A character of the first plane reads back from its escaped unit. -/
theorem unicodeEscape?_unit {c : Char} (hc : c.toNat < 0x10000) (rest : List Char) :
    unicodeEscape? (Text.hexDigits 4 c.toNat ++ rest) = some (c, rest) := by
  -- a character is no high half, so the reader looks for no low half behind it
  have hhigh : ¬ (0xD800 ≤ c.toNat ∧ c.toNat < 0xDC00) := by
    have := not_surrogate c
    omega
  rw [unicodeEscape?, hexUnit?_hexDigits hc]
  dsimp only
  rw [if_neg hhigh, charOf_toNat]

/-- A character beyond the first plane reads back from its pair of units. -/
theorem unicodeEscape?_pair {c : Char} (hc : 0x10000 ≤ c.toNat) (rest : List Char) :
    unicodeEscape? (Text.hexDigits 4 (0xD800 + (c.toNat - 0x10000) / 1024) ++
      unitEscape (0xDC00 + (c.toNat - 0x10000) % 1024) ++ rest) = some (c, rest) := by
  have hmax : c.toNat < 0x110000 := by
    have hvalid : c.toNat.isValidChar := c.valid
    rcases hvalid with h | h <;> omega
  have hlow : lowSurrogate? (unitEscape (0xDC00 + (c.toNat - 0x10000) % 1024) ++ rest) =
      some (0xDC00 + (c.toNat - 0x10000) % 1024, rest) := by
    rw [unitEscape, List.cons_append, List.cons_append, lowSurrogate?,
      hexUnit?_hexDigits (by omega)]
    dsimp only
    rw [if_pos (by omega)]
  have hsum : 0x10000 + (0xD800 + (c.toNat - 0x10000) / 1024 - 0xD800) * 1024 +
      (0xDC00 + (c.toNat - 0x10000) % 1024 - 0xDC00) = c.toNat := by omega
  rw [unicodeEscape?, List.append_assoc, hexUnit?_hexDigits (by omega)]
  dsimp only
  rw [if_pos (by omega), hlow]
  dsimp only
  rw [hsum, charOf_toNat]

theorem unitEscape_append (n : Nat) (rest : List Char) :
    unitEscape n ++ rest = '\\' :: 'u' :: (Text.hexDigits 4 n ++ rest) := rfl

theorem escape?_unit (body : List Char) : escape? ('u' :: body) = unicodeEscape? body := rfl

/-- Reading one character of a string, given how its escape reads. -/
theorem readString_escape {n : Nat} {body rest acc : List Char} {c : Char}
    (h : escape? body = some (c, rest)) :
    readString (n + 1) ('\\' :: body) acc = readString n rest (c :: acc) := by
  have hquote : '\\' ≠ Text.quote := by decide
  rw [readString, if_neg hquote, if_pos rfl, h]

/-- The written form of one character reads back, and the reader goes on behind it. -/
theorem readString_escapeChar (n : Nat) (c : Char) (rest acc : List Char) :
    readString (n + 1) (escapeChar c ++ rest) acc = readString n rest (c :: acc) := by
  unfold escapeChar
  dsimp only
  -- one case for every written form, in the order in which the writer tries them
  split_ifs with hself hnew hreturn htab hfeed hback hprint hplane
  · apply readString_escape
    rcases hself with rfl | rfl <;> rfl
  · subst hnew
    exact readString_escape rfl
  · subst hreturn
    exact readString_escape rfl
  · subst htab
    exact readString_escape rfl
  · have hc : c = '\x0c' := Char.toNat_inj.mp hfeed
    subst hc
    exact readString_escape rfl
  · have hc : c = '\x08' := Char.toNat_inj.mp hback
    subst hc
    exact readString_escape rfl
  · -- a printable character is its own written form
    rw [not_or] at hself
    have hcontrol : ¬ c.toNat < 32 := Nat.not_lt.mpr hprint.1
    rw [List.singleton_append, readString, if_neg hself.1, if_neg hself.2, if_neg hcontrol]
  · -- one unit
    rw [unitEscape_append]
    apply readString_escape
    rw [escape?_unit, unicodeEscape?_unit hplane]
  · -- a pair of units, of which the reader takes the second together with the first
    rw [List.append_assoc, unitEscape_append]
    apply readString_escape
    rw [escape?_unit, ← List.append_assoc, unicodeEscape?_pair (Nat.le_of_not_lt hplane)]

/-! ### Strings -/

theorem escapeChar_ne_nil (c : Char) : escapeChar c ≠ [] := by
  unfold escapeChar
  dsimp only
  split_ifs <;> exact List.cons_ne_nil _ _

/-- Every character takes up some of the text. -/
theorem length_le_length_flatMap_escapeChar (s : List Char) :
    s.length ≤ (s.flatMap escapeChar).length := by
  induction s with
  | nil => exact Nat.le_refl 0
  | cons c s ih =>
    have hpos := List.length_pos_iff.mpr (escapeChar_ne_nil c)
    rw [List.flatMap_cons, List.length_append, List.length_cons]
    omega

/-- The characters of a string read back up to the closing quotation mark. -/
theorem readString_flatMap_escapeChar {n : Nat} (s rest acc : List Char) (hn : s.length < n) :
    readString n (s.flatMap escapeChar ++ Text.quote :: rest) acc =
      .ok (String.ofList (acc.reverse ++ s), rest) := by
  induction s generalizing n acc with
  | nil =>
    obtain ⟨m, rfl⟩ := Nat.exists_eq_add_of_lt hn
    rw [List.flatMap_nil, List.nil_append, readString, if_pos rfl, List.append_nil]
  | cons c s ih =>
    -- one step of the bound pays for one character, however long its written form is
    obtain ⟨m, rfl⟩ : ∃ m, n = m + 1 := ⟨n - 1, by omega⟩
    have hm : s.length < m := by
      rw [List.length_cons] at hn
      omega
    rw [List.flatMap_cons, List.append_assoc, readString_escapeChar, ih _ hm, List.reverse_cons,
      List.append_assoc, List.singleton_append]

/-- A written string reads back behind its opening quotation mark. -/
theorem readString_writeString (s : String) (rest : List Char) :
    ∃ body, writeString s ++ rest = '\x22' :: body ∧
      readString (body.length + 1) body [] = .ok (s, rest) := by
  refine ⟨s.toList.flatMap escapeChar ++ Text.quote :: rest, ?_, ?_⟩
  · rw [writeString, List.cons_append, List.append_assoc, List.singleton_append]
    rfl
  · have hlength := length_le_length_flatMap_escapeChar s.toList
    rw [readString_flatMap_escapeChar, List.reverse_nil, List.nil_append, String.ofList_toList]
    rw [List.length_append]
    omega

end Json

end ScriptHealth
