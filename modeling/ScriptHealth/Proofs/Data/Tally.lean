import ScriptHealth.Number.Plain
import ScriptHealth.Proofs.Data.OrderedMap
import Mathlib.Data.List.Induction

/-!
# Maps that count

A list of keys is counted key by key: each one raises its number by one, and a key that occurs for
the first time goes to the end of the map. The map that comes out has the keys of the list in the
order in which they first occur, each with the number of its occurrences.

The facts are about the list that was counted so far, so the inductions add a key at its end.

## Main definitions

* `OrderedMap.tick` — one more occurrence of a key
* `OrderedMap.tally` — the occurrences of the keys of a list

## Main results

* `OrderedMap.mem_tally_iff` — the pairs of the map
* `OrderedMap.pairwise_keys_tally` — the order of its keys
* `OrderedMap.sum_values_tally` — its numbers add up to the length of the list
-/

namespace ScriptHealth.OrderedMap

open scoped Number.Plain

/-- Count one more occurrence of a key. -/
def tick (m : OrderedMap Nat) (key : String) : OrderedMap Nat :=
  m.insert key ((m.get? key).getD 0 + 1)

/-- The number of occurrences of each key of a list. -/
def tally (keys : List String) : OrderedMap Nat := keys.foldl tick []

/-! ### One more key -/

theorem tally_concat (keys : List String) (key : String) :
    tally (keys ++ [key]) = tick (tally keys) key :=
  List.foldl_concat tick [] key keys

theorem mem_keys_tick {m : OrderedMap Nat} {key k : String} :
    k ∈ (tick m key).keys ↔ k ∈ m.keys ∨ k = key := by
  rw [tick, keys_insert]
  split
  · rename_i hkey
    exact (or_iff_left_of_imp fun h => h ▸ hkey).symm
  · rw [List.mem_append, List.mem_singleton]

theorem getD_get?_tick (m : OrderedMap Nat) (key k : String) :
    ((tick m key).get? k).getD 0 = (m.get? k).getD 0 + if key = k then 1 else 0 := by
  rw [tick, get?_insert]
  by_cases h : key = k
  · subst h
    rw [if_pos rfl, if_pos rfl, Option.getD_some]
  · rw [if_neg (Ne.symm h), if_neg h, Nat.add_zero]

/-- The numbers add up to one more. -/
theorem sum_values_tick (m : OrderedMap Nat) (key : String) :
    (tick m key).values.sum = m.values.sum + 1 := by
  induction m with
  | nil => rfl
  | cons e es ih =>
    rw [tick, insert, get?_cons]
    by_cases he : e.1 = key
    · simp only [if_pos he, Option.getD_some, values, List.map_cons, List.sum_cons]
      omega
    · simp only [tick, values] at ih
      simp only [if_neg he, values, List.map_cons, List.sum_cons, ih]
      omega

/-! ### All keys of a list -/

theorem mem_keys_tally {keys : List String} {k : String} : k ∈ (tally keys).keys ↔ k ∈ keys := by
  induction keys using List.reverseRecOn with
  | nil => exact Iff.rfl
  | append_singleton keys key ih =>
    rw [tally_concat, mem_keys_tick, ih, List.mem_append, List.mem_singleton]

theorem getD_get?_tally (keys : List String) (k : String) :
    ((tally keys).get? k).getD 0 = keys.count k := by
  induction keys using List.reverseRecOn with
  | nil => rfl
  | append_singleton keys key ih =>
    rw [tally_concat, getD_get?_tick, ih, List.count_append, List.count_singleton]
    simp

/-- The numbers add up to the length of the list. -/
theorem sum_values_tally (keys : List String) : (tally keys).values.sum = keys.length := by
  induction keys using List.reverseRecOn with
  | nil => rfl
  | append_singleton keys key ih =>
    rw [tally_concat, sum_values_tick, ih, List.length_append, List.length_singleton]

/-- The keys stand in the order in which they first occur. -/
theorem pairwise_keys_tally (keys : List String) :
    (tally keys).keys.Pairwise fun a b => keys.idxOf a < keys.idxOf b := by
  induction keys using List.reverseRecOn with
  | nil => exact .nil
  | append_singleton keys key ih =>
    -- another key at the end of the list changes no first place
    have hplace {k : String} (hk : k ∈ (tally keys).keys) :
        (keys ++ [key]).idxOf k = keys.idxOf k :=
      List.idxOf_append_of_mem (mem_keys_tally.mp hk)
    have hkept : (tally keys).keys.Pairwise
        fun a b => (keys ++ [key]).idxOf a < (keys ++ [key]).idxOf b := by
      refine ih.imp_of_mem fun ha hb hab => ?_
      rw [hplace ha, hplace hb]
      exact hab
    rw [tally_concat, tick, keys_insert]
    split
    · exact hkept
    · rename_i hnew
      refine List.pairwise_append.mpr ⟨hkept, List.pairwise_singleton _ _, ?_⟩
      intro a ha b hb
      obtain rfl := List.mem_singleton.mp hb
      rw [hplace ha, List.idxOf_append_of_notMem (mt mem_keys_tally.mpr hnew)]
      exact Nat.lt_add_right _ (List.idxOf_lt_length_iff.mpr (mem_keys_tally.mp ha))

theorem nodup_keys_tally (keys : List String) : (tally keys).keys.Nodup := by
  refine (pairwise_keys_tally keys).imp fun hlt heq => ?_
  rw [heq] at hlt
  exact Nat.lt_irrefl _ hlt

/-- The pairs of the map: each key of the list with the number of its occurrences. -/
theorem mem_tally_iff {keys : List String} {e : String × Nat} :
    e ∈ tally keys ↔ e.1 ∈ keys ∧ e.2 = keys.count e.1 := by
  have hnumber := getD_get?_tally keys e.1
  have hmem : e ∈ tally keys ↔ (tally keys).get? e.1 = some e.2 :=
    (get?_eq_some_iff (nodup_keys_tally keys)).symm
  rw [hmem, ← mem_keys_tally]
  cases hget : (tally keys).get? e.1 with
  | none => simp [get?_eq_none_iff.mp hget]
  | some n =>
    have hkey : e.1 ∈ (tally keys).keys := by
      by_contra hnone
      rw [get?_eq_none_iff.mpr hnone] at hget
      cases hget
    rw [hget, Option.getD_some] at hnumber
    simp [hkey, hnumber, eq_comm]

end ScriptHealth.OrderedMap
