/-!
# Maps that remember the order of their keys

A map is a list of pairs without repeated keys. A new key goes to the end; a key that is already
present keeps its place and takes the new value.

## Main definitions

* `OrderedMap.insert`, `OrderedMap.ofPairs`, `OrderedMap.union`, `OrderedMap.erase`
* `OrderedMap.get?`, `OrderedMap.contains`, `OrderedMap.keys`

## Main results

* `OrderedMap.get?_insert` says what each key has after an insertion
* `OrderedMap.keys_insert` says where the key of an insertion stands
-/

namespace ScriptHealth

/-- A map from texts in the order in which its keys were first inserted. -/
abbrev OrderedMap (α : Type) := List (String × α)

namespace OrderedMap

variable {α : Type}

/-- Set the value of a key. -/
def insert (key : String) (value : α) : OrderedMap α → OrderedMap α
  | [] => [(key, value)]
  | e :: es => if e.1 = key then (key, value) :: es else e :: insert key value es

/-- The value of a key. -/
def get? (key : String) (m : OrderedMap α) : Option α := (m.find? (·.1 == key)).map (·.2)

/-- Whether a key is present. -/
def contains (key : String) (m : OrderedMap α) : Bool := m.any (·.1 == key)

/-- The keys in order. -/
def keys (m : OrderedMap α) : List String := m.map (·.1)

/-- The values in the order of their keys. -/
def values (m : OrderedMap α) : List α := m.map (·.2)

/-- Remove a key. -/
def erase (key : String) (m : OrderedMap α) : OrderedMap α := m.filter (·.1 != key)

/-- Insert pairs one after the other. -/
def insertAll (m : OrderedMap α) (pairs : List (String × α)) : OrderedMap α :=
  pairs.foldl (fun m p => m.insert p.1 p.2) m

/-- The map of a list of pairs; a repeated key keeps its first place and takes its last value. -/
def ofPairs (pairs : List (String × α)) : OrderedMap α := insertAll [] pairs

/-- The keys of `m` and then the further keys of `n`; the values of `n` win. -/
def union (m n : OrderedMap α) : OrderedMap α := insertAll m n

/-- After an insertion the key has the new value and every other key its former one. -/
theorem get?_insert (key k : String) (value : α) (m : OrderedMap α) :
    (m.insert key value).get? k = if k = key then some value else m.get? k := by
  induction m with
  | nil =>
    by_cases h : k = key
    · simp [insert, get?, h]
    · simp [insert, get?, h, Ne.symm h]
  | cons e es ih =>
    simp only [get?] at ih
    by_cases he : e.1 = key
    · by_cases h : k = key
      · simp [insert, get?, he, h]
      · have : ¬ key = k := fun hk => h hk.symm
        simp [insert, get?, he, h, this]
    · by_cases hk : e.1 = k
      · have : ¬ k = key := fun h => he (hk.trans h)
        simp [insert, get?, hk, this]
      · simp [insert, get?, he, hk, ih]

@[simp] theorem keys_nil : keys ([] : OrderedMap α) = [] := rfl

@[simp] theorem keys_cons (e : String × α) (es : OrderedMap α) : keys (e :: es) = e.1 :: keys es :=
  rfl

/-- An insertion keeps the keys of a map that has the key and appends the key otherwise. -/
theorem keys_insert (key : String) (value : α) (m : OrderedMap α) :
    (m.insert key value).keys = if key ∈ m.keys then m.keys else m.keys ++ [key] := by
  induction m with
  | nil => simp [insert]
  | cons e es ih =>
    by_cases he : e.1 = key
    · simp [insert, he]
    · have hne : ¬ key = e.1 := fun h => he h.symm
      by_cases hmem : key ∈ keys es <;> simp [insert, he, hne, ih, hmem]

end OrderedMap

end ScriptHealth
