import Mathlib.Data.List.Pairwise

/-!
# Sorting keeps the order among equals

Lists are sorted by a comparison in which different items may be equals. Such items keep the order
in which they stood before. Most lists are sorted by a falling number, and some are cut afterwards;
the cut takes no item that is above a bound as long as there is one that is not.

## Main results

* `Sort.filter_mergeSort` — items that are equals to each other keep their order
* `Sort.pairwise_falling`, `Sort.filter_falling`, `Sort.pairwise_falling_ties` — lists by falling
  number
* `Sort.countP_take` — how many of the first items pass a test that the first ones pass
-/

namespace ScriptHealth.Sort

variable {α : Type} {le : α → α → Bool}

/-- Items that may stand in either order keep the order in which they stood. -/
theorem filter_mergeSort (trans : ∀ a b c, le a b = true → le b c = true → le a c = true)
    (total : ∀ a b, (le a b || le b a) = true) {p : α → Bool}
    (equals : ∀ a b, p a = true → p b = true → le a b = true) (items : List α) :
    (items.mergeSort le).filter p = items.filter p := by
  have hsorted : (items.filter p).Pairwise fun a b => le a b = true := by
    apply List.pairwise_of_forall_mem_list
    intro a ha b hb
    exact equals a b (List.mem_filter.mp ha).2 (List.mem_filter.mp hb).2
  -- the sort is stable, so it has the chosen items in their order, and no others pass the test
  have hsublist : (items.filter p).Sublist ((items.mergeSort le).filter p) := by
    have h := (List.sublist_mergeSort trans total hsorted List.filter_sublist).filter p
    simpa only [List.filter_filter, Bool.and_self] using h
  have hlength := ((List.mergeSort_perm items le).filter p).length_eq
  exact (hsublist.eq_of_length hlength.symm).symm

/-! ### Falling numbers -/

section Falling

variable (number : α → Nat) (items : List α)

theorem falling_trans (a b c : α) (hab : decide (number b ≤ number a) = true)
    (hbc : decide (number c ≤ number b) = true) : decide (number c ≤ number a) = true := by
  rw [decide_eq_true_eq] at *
  exact Nat.le_trans hbc hab

theorem falling_total (a b : α) :
    (decide (number b ≤ number a) || decide (number a ≤ number b)) = true := by
  rw [Bool.or_eq_true, decide_eq_true_eq, decide_eq_true_eq]
  exact Nat.le_total _ _

/-- In a list by falling number no item has a larger number than one before it. -/
theorem pairwise_falling :
    (items.mergeSort fun a b => decide (number b ≤ number a)).Pairwise
      fun a b => number b ≤ number a := by
  have hsorted := List.pairwise_mergeSort (falling_trans number) (falling_total number) items
  exact hsorted.imp of_decide_eq_true

/-- Items with one number keep the order in which they stood. -/
theorem filter_falling (n : Nat) :
    (items.mergeSort fun a b => decide (number b ≤ number a)).filter (number · == n) =
      items.filter (number · == n) := by
  apply filter_mergeSort (falling_trans number) (falling_total number)
  intro a b ha hb
  rw [beq_iff_eq] at ha hb
  rw [ha, hb]
  exact decide_eq_true (Nat.le_refl n)

variable {items}

/-- What holds of any two items in their order still holds of those with equal numbers. -/
theorem pairwise_falling_ties {R : α → α → Prop} (h : items.Pairwise R) :
    (items.mergeSort fun a b => decide (number b ≤ number a)).Pairwise
      fun a b => number a = number b → R a b := by
  rw [List.pairwise_iff_forall_sublist]
  intro a b hsub hnumber
  -- both items are among those with the number of the first, and these have not moved
  have hties := hsub.filter (number · == number a)
  rw [filter_falling] at hties
  apply List.pairwise_iff_forall_sublist.mp h
  simpa [hnumber] using hties.trans List.filter_sublist

end Falling

/-- Where the items that pass a test stand in front of the others, a cut leaves others only if it
leaves all that pass. -/
theorem countP_take {p : α → Bool} {items : List α}
    (h : items.Pairwise fun a b => p b = true → p a = true) (n : Nat) :
    (items.take n).countP p = min n (items.countP p) := by
  induction items generalizing n with
  | nil => simp
  | cons a items ih =>
    rw [List.pairwise_cons] at h
    cases n with
    | zero => simp
    | succ n =>
      rw [List.take_succ_cons, List.countP_cons, List.countP_cons, ih h.2]
      by_cases ha : p a = true
      · rw [if_pos ha]
        omega
      · -- the first item fails, and so do all behind it
        have hnone : items.countP p = 0 := by
          rw [List.countP_eq_zero]
          exact fun b hb hpb => ha (h.1 b hb hpb)
        rw [if_neg ha, hnone]
        omega

end ScriptHealth.Sort
