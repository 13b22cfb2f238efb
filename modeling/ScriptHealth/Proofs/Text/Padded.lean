import ScriptHealth.Value.Moment
import Mathlib.Data.List.Forall2

/-!
# Numbers of fixed width

A number that is written with zeros in front up to a fixed width is compared as a text: the first
digit in which two such numbers differ decides, and it stands at the same place in both. So texts
that are laid out alike, field behind field, are ordered as the lists of their numbers.

## Main definitions

* `Text.zeroPadded` — the digits of a number with zeros in front
* `Text.Fits` — a number that needs no more digits than there are
* `Text.layout` — numbers of fixed widths with separators behind them
* `Text.Matches` — a text with digits where a pattern has zeros

## Main results

* `Text.zeroPadded_lt` — numbers of one width are ordered as their texts
* `Text.layout_lt` — lists of numbers are ordered as the texts that they are laid out in
* `Text.matches_layout` — a layout has digits in its fields and its separators behind them
-/

namespace ScriptHealth.Text

/-- A longer list is compared by its front if the fronts have equal lengths. -/
theorem append_lt_append_of_length {α : Type} [LT α] {a b : List α} (hlength : a.length = b.length)
    (h : a < b) (c d : List α) : a ++ c < b ++ d := by
  induction a generalizing b with
  | nil =>
    obtain rfl := List.length_eq_zero_iff.mp hlength.symm
    exact absurd h (List.not_lt_nil _)
  | cons x a ih =>
    obtain ⟨y, b, rfl⟩ := List.exists_cons_of_length_eq_add_one hlength.symm
    rw [List.cons_append, List.cons_append, List.cons_lt_cons_iff]
    rcases List.cons_lt_cons_iff.mp h with hxy | ⟨rfl, hab⟩
    · exact .inl hxy
    · exact .inr ⟨rfl, ih (Nat.succ.inj hlength) hab⟩

/-! ### One number -/

/-- The digits of a number in a base, with zeros in front up to a width. -/
def zeroPadded (base width n : Nat) : List Char :=
  List.replicate (width - (Nat.toDigits base n).length) '0' ++ Nat.toDigits base n

/-- A number that has no more than `width` decimal digits. -/
def Fits (width n : Nat) : Prop := (Nat.toDigits 10 n).length ≤ width

variable {width m n : Nat}

theorem toList_padded (width n : Nat) : (padded width n).toList = zeroPadded 10 width n :=
  String.toList_ofList

theorem length_zeroPadded (h : Fits width n) : (zeroPadded 10 width n).length = width := by
  unfold Fits at h
  rw [zeroPadded, List.length_append, List.length_replicate]
  omega

theorem isDigit_of_mem_zeroPadded {c : Char} (h : c ∈ zeroPadded 10 width n) : c.isDigit = true := by
  rcases List.mem_append.mp h with hzero | hdigit
  · rw [List.eq_of_mem_replicate hzero]
    rfl
  · exact Nat.isDigit_of_mem_toDigits (by decide) (by decide) hdigit

/-- The last of at least two digits is that of the remainder. -/
theorem zeroPadded_succ {base : Nat} (hbase : 1 < base) (hwidth : 0 < width) (n : Nat) :
    zeroPadded base (width + 1) n =
      zeroPadded base width (n / base) ++ [(n % base).digitChar] := by
  unfold zeroPadded
  by_cases hn : n < base
  · -- a single digit: on both sides all other places are padding
    have hzeros : List.replicate (width - 1) '0' ++ ['0'] = List.replicate width '0' := by
      rw [← List.replicate_succ', Nat.sub_add_cancel hwidth]
    rw [Nat.div_eq_of_lt hn, Nat.mod_eq_of_lt hn, Nat.toDigits_of_lt_base hn, Nat.toDigits_zero,
      List.length_singleton, List.length_singleton, Nat.add_sub_cancel, hzeros]
  · rw [Nat.toDigits_of_base_le hbase (Nat.le_of_not_lt hn), List.length_append,
      List.length_singleton, Nat.add_sub_add_right, List.append_assoc]

theorem Fits.div_ten (hwidth : 0 < width) (h : Fits (width + 1) n) : Fits width (n / 10) := by
  unfold Fits at *
  by_cases hn : n < 10
  · rw [Nat.div_eq_of_lt hn, Nat.toDigits_zero]
    exact hwidth
  · rw [Nat.toDigits_of_base_le (by decide) (Nat.le_of_not_lt hn), List.length_append,
      List.length_singleton] at h
    exact Nat.le_of_add_le_add_right h

theorem digitChar_lt (h : m < n) (hn : n < 10) : m.digitChar < n.digitChar := by
  rw [Char.lt_def, UInt32.lt_iff_toNat_lt]
  change m.digitChar.toNat < n.digitChar.toNat
  rw [Nat.toNat_digitChar_of_lt_ten hn, Nat.toNat_digitChar_of_lt_ten (Nat.lt_trans h hn)]
  omega

/-- Numbers of one width are ordered as their texts. -/
theorem zeroPadded_lt (hm : Fits width m) (hn : Fits width n) (h : m < n) :
    zeroPadded 10 width m < zeroPadded 10 width n := by
  induction width generalizing m n with
  | zero => exact absurd (List.length_eq_zero_iff.mp (Nat.le_zero.mp hm)) Nat.toDigits_ne_nil
  | succ width ih =>
    by_cases hwidth : 0 < width
    · rw [zeroPadded_succ (by decide) hwidth, zeroPadded_succ (by decide) hwidth]
      have hlength : (zeroPadded 10 width (m / 10)).length = (zeroPadded 10 width (n / 10)).length := by
        rw [length_zeroPadded (hm.div_ten hwidth), length_zeroPadded (hn.div_ten hwidth)]
      -- the digits in front decide unless they are the same
      rcases Nat.lt_or_ge (m / 10) (n / 10) with hfront | hfront
      · exact append_lt_append_of_length hlength
          (ih (hm.div_ten hwidth) (hn.div_ten hwidth) hfront) _ _
      · have heq : m / 10 = n / 10 := by omega
        have hlast : m % 10 < n % 10 := by omega
        rw [heq]
        exact List.append_left_lt (List.cons_lt_cons_iff.mpr
          (.inl (digitChar_lt hlast (Nat.mod_lt n (by decide)))))
    · obtain rfl : width = 0 := Nat.eq_zero_of_not_pos hwidth
      have hten {k : Nat} (hk : Fits (0 + 1) k) : k < 10 :=
        (Nat.length_toDigits_le_iff (by decide) (by decide)).mp hk
      have hone {k : Nat} (hk : k < 10) : zeroPadded 10 (0 + 1) k = [k.digitChar] := by
        rw [zeroPadded, Nat.toDigits_of_lt_base hk]
        rfl
      rw [hone (hten hm), hone (hten hn)]
      exact List.cons_lt_cons_iff.mpr (.inl (digitChar_lt h (hten hn)))

/-! ### Several numbers -/

/-- Numbers of fixed widths, each with a separator behind it. -/
def layout : List (Nat × List Char) → List Nat → List Char
  | (width, separator) :: fields, n :: ns =>
    zeroPadded 10 width n ++ (separator ++ layout fields ns)
  | _, _ => []

/-- Numbers that have no more digits than their fields are wide. -/
def FitAll (fields : List (Nat × List Char)) (ns : List Nat) : Prop :=
  List.Forall₂ (fun field n => Fits field.1 n) fields ns

/-- A text with a digit wherever the pattern has a zero, and otherwise with the characters of the
pattern. -/
def Matches (pattern text : List Char) : Prop :=
  List.Forall₂ (fun p c => if p = '0' then c.isDigit = true else c = p) pattern text

/-- The pattern of a layout. -/
def patternOf (fields : List (Nat × List Char)) : List Char :=
  fields.flatMap fun field => List.replicate field.1 '0' ++ field.2

variable {fields : List (Nat × List Char)} {ms ns : List Nat}

/-- Lists of numbers are ordered as the texts that they are laid out in. -/
theorem layout_lt (hms : FitAll fields ms) (hns : FitAll fields ns) (h : ms < ns) :
    layout fields ms < layout fields ns := by
  induction hms generalizing ns with
  | nil =>
    cases hns
    exact absurd h (List.not_lt_nil _)
  | @cons field m fields ms hm hms ih =>
    obtain ⟨n, ns, hn, hrestFits, rfl⟩ := List.forall₂_cons_left_iff.mp hns
    obtain ⟨width, separator⟩ := field
    rcases List.cons_lt_cons_iff.mp h with hmn | ⟨rfl, hrest⟩
    · have hlength : (zeroPadded 10 width m).length = (zeroPadded 10 width n).length := by
        rw [length_zeroPadded hm, length_zeroPadded hn]
      exact append_lt_append_of_length hlength (zeroPadded_lt hm hn hmn) _ _
    · exact List.append_left_lt (List.append_left_lt (ih hrestFits hrest))

/-- Digits match as many zeros. -/
theorem Matches.zeroPadded_append {pattern text : List Char} (hn : Fits width n)
    (h : Matches pattern text) :
    Matches (List.replicate width '0' ++ pattern) (zeroPadded 10 width n ++ text) := by
  refine List.rel_append ?_ h
  rw [List.forall₂_iff_zip]
  refine ⟨by rw [List.length_replicate, length_zeroPadded hn], ?_⟩
  intro p c hpc
  obtain ⟨hp, hc⟩ := List.of_mem_zip hpc
  rw [List.eq_of_mem_replicate hp, if_pos rfl]
  exact isDigit_of_mem_zeroPadded hc

/-- A layout has digits in its fields and its separators behind them. -/
theorem matches_layout (hseparators : ∀ field ∈ fields, '0' ∉ field.2) (hns : FitAll fields ns) :
    Matches (patternOf fields) (layout fields ns) := by
  induction hns with
  | nil => exact .nil
  | @cons field n fields ns hn hns ih =>
    obtain ⟨width, separator⟩ := field
    rw [List.forall_mem_cons] at hseparators
    have hseparator : Matches separator separator := by
      refine List.forall₂_same.mpr fun c hc => ?_
      rw [if_neg (ne_of_mem_of_not_mem hc hseparators.1)]
    have hrest : Matches (separator ++ patternOf fields) (separator ++ layout fields ns) :=
      List.rel_append hseparator (ih hseparators.2)
    rw [patternOf, List.flatMap_cons, List.append_assoc]
    exact hrest.zeroPadded_append hn

end ScriptHealth.Text
