import ScriptHealth.Data.OrderedMap
import Mathlib.Data.List.Nodup

/-!
# Maps without repeated keys

A map is a list of pairs, and nothing in its type forbids that a key occurs twice. Maps that are
made by insertions have every key once, and a list of pairs that has every key once is the map of
its own pairs.

## Main results

* `OrderedMap.insert_eq_append` — a new key goes to the end
* `OrderedMap.ofPairs_eq_self` — pairs without repeated keys are their own map
* `OrderedMap.get?_eq_some_iff` — a map without repeated keys has exactly its pairs
* `OrderedMap.keys_union`, `OrderedMap.get?_union` — keys and values of two maps that are merged
* `OrderedMap.keys_union_perm` — the order of two maps shows only in the order of the merged keys
-/

namespace ScriptHealth.OrderedMap

variable {α : Type}

/-- A new key goes to the end. -/
theorem insert_eq_append {key : String} {m : OrderedMap α} (h : key ∉ m.keys) (value : α) :
    m.insert key value = m ++ [(key, value)] := by
  induction m with
  | nil => rfl
  | cons e es ih =>
    rw [keys_cons, List.mem_cons, not_or] at h
    have hne : e.1 ≠ key := fun he => h.1 he.symm
    rw [insert, if_neg hne, ih h.2, List.cons_append]

/-- An insertion adds at most its own pair. -/
theorem mem_insert {m : OrderedMap α} {key : String} {value : α} {e : String × α}
    (h : e ∈ m.insert key value) : e = (key, value) ∨ e ∈ m := by
  induction m with
  | nil => exact Or.inl (List.mem_singleton.mp h)
  | cons d ds ih =>
    rw [insert] at h
    split at h
    · -- the key is found here, and its pair is replaced
      rcases List.mem_cons.mp h with he | he
      · exact Or.inl he
      · exact Or.inr (List.mem_cons_of_mem d he)
    · rcases List.mem_cons.mp h with rfl | he
      · exact Or.inr List.mem_cons_self
      · exact (ih he).imp id (List.mem_cons_of_mem d)

/-- Inserting pairs with new keys appends them. -/
theorem insertAll_eq_append {m pairs : OrderedMap α} (h : (keys (m ++ pairs)).Nodup) :
    m.insertAll pairs = m ++ pairs := by
  induction pairs generalizing m with
  | nil => rw [List.append_nil]; rfl
  | cons p ps ih =>
    have hkey : p.1 ∉ m.keys := by
      intro hmem
      rw [keys, List.map_append, List.nodup_append'] at h
      exact h.2.2 hmem List.mem_cons_self
    -- the first pair goes to the end of the map, and the others are inserted behind it
    have happend : m ++ [p] ++ ps = m ++ p :: ps := by
      rw [List.append_assoc, List.singleton_append]
    calc m.insertAll (p :: ps) = (m.insert p.1 p.2).insertAll ps := rfl
      _ = (m ++ [p]).insertAll ps := by rw [insert_eq_append hkey]
      _ = m ++ [p] ++ ps := ih (happend ▸ h)
      _ = m ++ p :: ps := happend

/-- Pairs without repeated keys are their own map. -/
theorem ofPairs_eq_self {pairs : OrderedMap α} (h : pairs.keys.Nodup) : ofPairs pairs = pairs :=
  insertAll_eq_append h

/-- What a map has for a key is one of its pairs. -/
theorem mem_of_get?_eq_some {m : OrderedMap α} {key : String} {value : α}
    (h : m.get? key = some value) : (key, value) ∈ m := by
  obtain ⟨e, he, rfl⟩ := Option.map_eq_some_iff.mp h
  -- the pair that was found carries the key that was looked for
  have hkey : e.1 = key := by simpa using List.find?_some he
  exact hkey ▸ List.mem_of_find?_eq_some he

theorem get?_cons (key : String) (e : String × α) (es : OrderedMap α) :
    get? key (e :: es) = if e.1 = key then some e.2 else get? key es := by
  by_cases h : e.1 = key
  · simp [get?, h]
  · simp [get?, h]

/-- A map without repeated keys has for each key what stands in its pair. -/
theorem get?_eq_some_iff {m : OrderedMap α} (h : m.keys.Nodup) {key : String} {value : α} :
    m.get? key = some value ↔ (key, value) ∈ m := by
  refine ⟨mem_of_get?_eq_some, fun hmem => ?_⟩
  induction m with
  | nil => exact absurd hmem List.not_mem_nil
  | cons e es ih =>
    rw [keys_cons, List.nodup_cons] at h
    rw [get?_cons]
    rcases List.mem_cons.mp hmem with rfl | hrest
    · exact if_pos rfl
    · -- the key stands behind the first pair, whose key is another one
      have hne : e.1 ≠ key := by
        rintro rfl
        exact h.1 (List.mem_map.mpr ⟨_, hrest, rfl⟩)
      rw [if_neg hne]
      exact ih h.2 hrest

/-- A map has something for each of its keys and for nothing else. -/
theorem get?_eq_none_iff {m : OrderedMap α} {key : String} : m.get? key = none ↔ key ∉ m.keys := by
  induction m with
  | nil => simp [get?]
  | cons e es ih =>
    rw [get?_cons, keys_cons, List.mem_cons, not_or, ← ih]
    by_cases h : e.1 = key
    · simp [h]
    · simp [h, Ne.symm h]

/-! ### Changed maps -/

theorem nodup_keys_insert {m : OrderedMap α} (h : m.keys.Nodup) (key : String) (value : α) :
    (m.insert key value).keys.Nodup := by
  rw [keys_insert]
  split
  · exact h
  · rename_i hkey
    rw [← List.concat_eq_append]
    exact h.concat hkey

/-- Removing a key leaves the others alone. -/
theorem get?_erase {key k : String} (h : k ≠ key) (m : OrderedMap α) :
    (m.erase key).get? k = m.get? k := by
  induction m with
  | nil => rfl
  | cons e es ih =>
    rw [erase, List.filter_cons]
    by_cases he : e.1 = key
    · have hne : ¬ e.1 = k := fun hk => h (hk.symm.trans he)
      rw [if_neg (by simp [he]), get?_cons, if_neg hne]
      exact ih
    · rw [if_pos (by simp [he]), get?_cons, get?_cons]
      split
      · rfl
      · exact ih

/-- A key that is removed has no value. -/
theorem get?_erase_self (key : String) (m : OrderedMap α) : (m.erase key).get? key = none := by
  rw [get?_eq_none_iff, keys, erase]
  simp

theorem get?_map {β : Type} (f : String → α → β) (m : OrderedMap α) (key : String) :
    get? key (m.map fun e => (e.1, f e.1 e.2)) = (m.get? key).map (f key) := by
  induction m with
  | nil => rfl
  | cons e es ih =>
    rw [List.map_cons, get?_cons, get?_cons]
    by_cases he : e.1 = key
    · subst he
      rw [if_pos rfl, if_pos rfl, Option.map_some]
    · rw [if_neg he, if_neg he]
      exact ih

/-- Keeping some of the values drops the others; no key has a second value behind them. -/
theorem get?_filter {m : OrderedMap α} (h : m.keys.Nodup) (p : α → Bool) (key : String) :
    get? key (m.filter fun e => p e.2) = (m.get? key).filter p := by
  induction m with
  | nil => rfl
  | cons e es ih =>
    rw [keys_cons, List.nodup_cons] at h
    rw [List.filter_cons, get?_cons]
    by_cases he : e.1 = key
    · rw [if_pos he]
      by_cases hp : p e.2 = true
      · rw [if_pos hp, get?_cons, if_pos he, Option.filter_some, if_pos hp]
      · -- the key stood here, so it is not among the pairs behind
        have hnone : get? key es = none := get?_eq_none_iff.mpr (he ▸ h.1)
        rw [if_neg hp, ih h.2, hnone, Option.filter_some, if_neg hp]
        rfl
    · rw [if_neg he, ← ih h.2]
      split
      · rw [get?_cons, if_neg he]
      · rfl

/-! ### Merged maps -/

/-- The keys of the first map, and then those that only the second one has. -/
theorem keys_union {n : OrderedMap α} (h : n.keys.Nodup) (m : OrderedMap α) :
    (m.union n).keys = m.keys ++ n.keys.filter (· ∉ m.keys) := by
  induction n generalizing m with
  | nil => simp [union, insertAll]
  | cons p ps ih =>
    rw [keys_cons, List.nodup_cons] at h
    have hstep : m.union (p :: ps) = (m.insert p.1 p.2).union ps := rfl
    rw [hstep, ih h.2, keys_insert, keys_cons]
    by_cases hp : p.1 ∈ m.keys
    · simp [hp]
    · -- no later pair has this key, so leaving it out changes nothing
      have hrest : (keys ps).filter (· ∉ m.keys ++ [p.1]) = (keys ps).filter (· ∉ m.keys) := by
        apply List.filter_congr
        intro k hk
        have hne : k ≠ p.1 := fun he => h.1 (he ▸ hk)
        simp [hne]
      rw [if_neg hp, hrest]
      simp [hp]

/-- A merged map has no repeated keys if the first one has none. -/
theorem nodup_keys_union {m n : OrderedMap α} (hm : m.keys.Nodup) (hn : n.keys.Nodup) :
    (m.union n).keys.Nodup := by
  rw [keys_union hn, List.nodup_append']
  refine ⟨hm, hn.filter _, ?_⟩
  intro k hk hfilter
  exact of_decide_eq_true (List.mem_filter.mp hfilter).2 hk

/-- A merged map has the values of the second one, and those of the first where it has none. -/
theorem get?_union {n : OrderedMap α} (h : n.keys.Nodup) (m : OrderedMap α) (key : String) :
    (m.union n).get? key = (n.get? key).or (m.get? key) := by
  induction n generalizing m with
  | nil => simp [union, insertAll, get?]
  | cons p ps ih =>
    rw [keys_cons, List.nodup_cons] at h
    have hstep : m.union (p :: ps) = (m.insert p.1 p.2).union ps := rfl
    rw [hstep, ih h.2, get?_insert, get?_cons]
    by_cases hp : p.1 = key
    · subst hp
      rw [get?_eq_none_iff.mpr h.1]
      simp
    · simp [hp, Ne.symm hp]

/-! ### Maps in another order -/

theorem keys_insert_perm {m m' : OrderedMap α} (h : m.keys.Perm m'.keys) (key : String)
    (value value' : α) : (m.insert key value).keys.Perm (m'.insert key value').keys := by
  rw [keys_insert, keys_insert]
  by_cases hkey : key ∈ m.keys
  · rw [if_pos hkey, if_pos (h.mem_iff.mp hkey)]
    exact h
  · rw [if_neg hkey, if_neg (mt h.mem_iff.mpr hkey)]
    exact h.append_right [key]

/-- Two insertions in either order have the same keys. -/
theorem keys_insert_comm_perm (m : OrderedMap α) (p q : String × α) :
    ((m.insert p.1 p.2).insert q.1 q.2).keys.Perm ((m.insert q.1 q.2).insert p.1 p.2).keys := by
  simp only [keys_insert]
  by_cases hpq : p.1 = q.1
  · simp [hpq]
  · have hqp : ¬ q.1 = p.1 := fun h => hpq h.symm
    by_cases hp : p.1 ∈ m.keys
    · by_cases hq : q.1 ∈ m.keys <;> simp [hp, hq]
    · by_cases hq : q.1 ∈ m.keys
      · simp [hp, hq]
      · -- both keys are new, and only their order differs
        simpa [hp, hq, hpq, hqp] using (List.Perm.swap q.1 p.1 []).append_left m.keys

theorem keys_insertAll_perm {m m' : OrderedMap α} (h : m.keys.Perm m'.keys)
    (pairs : OrderedMap α) : (m.insertAll pairs).keys.Perm (m'.insertAll pairs).keys := by
  induction pairs generalizing m m' with
  | nil => exact h
  | cons p ps ih => exact ih (keys_insert_perm h p.1 p.2 p.2)

/-- The order of the pairs of two maps shows only in the order of the merged keys. -/
theorem keys_union_perm {m m' n n' : OrderedMap α} (hm : m.keys.Perm m'.keys) (hn : n.Perm n') :
    (m.union n).keys.Perm (m'.union n').keys := by
  induction hn generalizing m m' with
  | nil => exact hm
  | cons p _ ih => exact ih (keys_insert_perm hm p.1 p.2 p.2)
  | swap p q ps =>
    have hboth := keys_insert_perm (keys_insert_perm hm q.1 q.2 q.2) p.1 p.2 p.2
    exact keys_insertAll_perm (hboth.trans (keys_insert_comm_perm m' q p)) ps
  | trans _ _ ih ih' => exact (ih hm).trans (ih' (List.Perm.refl _))

end ScriptHealth.OrderedMap
