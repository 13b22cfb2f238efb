import ScriptHealth.Proofs.Json.RoundTrip
import Mathlib.Data.List.TakeWhile

/-!
# Texts that the reader refuses

A text is refused as malformed, except that an integer with too many digits has a fault of its own.
That fault needs an integer: a text of nothing but blanks is malformed, whatever kind of blanks they
are.

## Main results

* `Json.parse_blank` — blank texts are malformed
* `Json.parse_digits` — integers with too many digits have their own fault
-/

namespace ScriptHealth

open Number

/-- A text of which nothing is left when its ends are trimmed holds blanks only. -/
theorem Text.isBlank_of_trim_eq_nil {s : List Char} (h : trim s = []) :
    ∀ c ∈ s, isBlank c = true := by
  have hstart : ∀ c ∈ trimStart s, isBlank c = true := by
    intro c hc
    rw [trim, trimEnd, List.reverse_eq_nil_iff, List.dropWhile_eq_nil_iff] at h
    exact h c (List.mem_reverse.mpr hc)
  -- the first character that is left would be no blank
  cases hs : trimStart s with
  | nil =>
    rw [trimStart, List.dropWhile_eq_nil_iff] at hs
    exact hs
  | cons c r =>
    have hblank := hstart c (hs ▸ List.mem_cons_self)
    rw [head_trimStart s c r hs] at hblank
    cases hblank

namespace Json

theorem isDigit_of_isBlank {c : Char} (h : Text.isBlank c = true) : c.isDigit = false := by
  by_contra hdigit
  rw [Bool.not_eq_false, Char.isDigit, Bool.and_eq_true, decide_eq_true_eq, decide_eq_true_eq,
    ge_iff_le, UInt32.le_iff_toNat_le, UInt32.le_iff_toNat_le] at hdigit
  have hlow : 48 ≤ c.toNat := hdigit.1
  have hhigh : c.toNat ≤ 57 := hdigit.2
  simp only [Text.isBlank, Bool.or_eq_true, Bool.and_eq_true, decide_eq_true_eq, beq_iff_eq] at h
  omega

/-- A blank starts no value. -/
theorem readValue_blank (n : Nat) {s : List Char} (h : ∀ c ∈ s, Text.isBlank c = true) :
    readValue (n + 1) s = .error .malformed := by
  cases s with
  | nil => rfl
  | cons c t =>
    have hc := h c List.mem_cons_self
    have hne {d : Char} (hd : Text.isBlank d = false) : c ≠ d := by
      rintro rfl
      cases hc.symm.trans hd
    have hname : readName? (c :: t) = none := by
      have hne' (d : Char) (hd : Text.isBlank d = false) : d ≠ c := (hne hd).symm
      simp [readName?, names, hne' 'n' rfl, hne' 't' rfl, hne' 'f' rfl, hne' 'N' rfl,
        hne' 'I' rfl, hne' '-' rfl]
    have hspan : spanDigits (c :: t) = ([], c :: t) := by
      refine @spanDigits_append [] (c :: t) (fun _ hd => absurd hd List.not_mem_nil) ?_
      rintro d ⟨⟩
      exact isDigit_of_isBlank hc
    have hwhole : whole? (c :: t) = none := by
      unfold whole?
      split
      · rename_i heq
        exact absurd (List.cons.inj heq).1 (hne rfl)
      · rw [hspan]
        rfl
    rw [readValue_eq_readAtom n ⟨hne rfl, hne rfl, hne rfl⟩, readAtom, hname]
    · dsimp only
      rw [readNumber, hwhole]
    · exact fun r heq => hne rfl (List.cons.inj heq).1

/-- Blank texts are malformed. -/
theorem parse_blank {s : List Char} (h : Text.trim s = []) : parse s = .error .malformed := by
  have hrest : ∀ c ∈ skipSpace s, Text.isBlank c = true := fun c hc =>
    Text.isBlank_of_trim_eq_nil h c (List.dropWhile_subset _ hc)
  rw [parse, readValue_blank _ hrest]

/-- An integer with too many digits is refused as such. -/
theorem parse_digits {ds : List Char} (hds : ∀ c ∈ ds, c.isDigit = true)
    (hhead : ds.head? ≠ some '0') (hlong : digitLimit < ds.length) :
    parse ds = .error (.tooManyDigits ds.length) := by
  have hne : ds ≠ [] := by
    rintro rfl
    exact absurd hlong (by decide)
  have hnumber : readNumber false ds = .error (.tooManyDigits ds.length) := by
    have hwhole := whole?_append hds hne hhead stops_nil
    rw [List.append_nil] at hwhole
    rw [readNumber, hwhole]
    dsimp only
    rw [fraction?_eq_none stops_nil]
    dsimp only
    rw [exponent?_eq_none stops_nil]
    dsimp only
    rw [if_neg (by decide), if_pos hlong]
  obtain ⟨d, t, rfl⟩ := List.exists_cons_of_ne_nil hne
  have hd := hds d List.mem_cons_self
  rw [parse, skipSpace_cons (isSpace_of_isDigit hd), readValue_eq_readAtom _
    ⟨ne_of_isDigit hd (by decide), ne_of_isDigit hd (by decide), ne_of_isDigit hd (by decide)⟩,
    readAtom, readName?_digit hd]
  dsimp only
  · rw [hnumber]
  · intro r heq
    exact ne_of_isDigit hd (by decide) (List.cons.inj heq).1

end Json

end ScriptHealth
