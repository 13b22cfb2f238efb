import ScriptHealth.Proofs.Data.OrderedMap
import ScriptHealth.Workspace.Walk
import Mathlib.Data.List.Perm.Basic

/-!
# File trees listed in another order

A folder is a list of named entries, but the order of that list is an accident of the system that
lists it. Two trees are the same up to that accident if one is turned into the other by swapping
neighbours, in any of its folders. Such trees hold the same entries at the same locations, so paths
lead to the same locations in them and links count as the same things.

## Main definitions

* `Entry.WellFormed` — every folder has each name once, and no name holds a slash
* `Entry.Relisted` — two trees that differ only in the order of the entries of their folders

## Main results

* `Entry.RelistedAll.of_perm`, `Entry.RelistedAll.of_forall₂` — every order of a folder is reached,
  and every order of the folders in it
* `Entry.Relisted.get?` — the same entries at the same locations
* `Workspace.followNames_relisted` — paths lead to the same locations
* `Workspace.entry_relisted` — they lead to the same entries
* `Workspace.countsAsFolder_relisted` — links count as the same things
-/

namespace ScriptHealth

namespace Entry

/-- Induction over a tree: a folder has what all of its entries have. -/
@[elab_as_elim]
theorem treeInduction {motive : Entry → Prop} (file : ∀ content, motive (.file content))
    (link : ∀ target, motive (.link target)) (closed : motive .closed)
    (folder : ∀ es, (∀ d ∈ es, motive d.2) → motive (.folder es)) (e : Entry) : motive e := by
  match e with
  | .file content => exact file content
  | .link target => exact link target
  | .closed => exact closed
  | .folder es => exact folder es fun d hd => treeInduction file link closed folder d.2
termination_by sizeOf e
decreasing_by
  have hmem := List.sizeOf_lt_of_mem hd
  have hpair : sizeOf d = 1 + sizeOf d.1 + sizeOf d.2 := rfl
  simp only [Entry.folder.sizeOf_spec]
  omega

theorem isFolder_iff {e : Entry} : e.isFolder = true ↔ ∃ es, e = .folder es := by
  cases e with
  | file _ => simp [isFolder]
  | link _ => simp [isFolder]
  | closed => simp [isFolder]
  | folder es => simp [isFolder]

theorem isDirectory_iff {e : Entry} :
    e.isDirectory = true ↔ e = .closed ∨ ∃ es, e = .folder es := by
  cases e with
  | file _ => simp [isDirectory]
  | link _ => simp [isDirectory]
  | closed => simp [isDirectory]
  | folder es => simp [isDirectory]

/-- At every location of the tree, the names in a folder are distinct and hold no slash. -/
def WellFormed (tree : Entry) : Prop :=
  ∀ place es, tree.get? place = some (.folder es) →
    (OrderedMap.keys es).Nodup ∧ ∀ name ∈ OrderedMap.keys es, '/' ∉ name.toList

theorem child?_folder (es : List (String × Entry)) (name : String) :
    (folder es).child? name = OrderedMap.get? name es := rfl

namespace WellFormed

variable {tree e : Entry} {place : Location}

/-- What stands in a well-formed tree is well-formed. -/
theorem of_get? (h : tree.WellFormed) (he : tree.get? place = some e) : e.WellFormed := by
  intro below es hes
  apply h (place ++ below)
  rw [Entry.get?_append, he, Option.bind_some, hes]

theorem nodup_keys {es : List (String × Entry)} (h : (folder es).WellFormed) :
    (OrderedMap.keys es).Nodup :=
  (h [] es rfl).1

/-- The entries of a folder are those at the locations behind its own. -/
theorem get?_append_singleton {es : List (String × Entry)} (h : tree.WellFormed)
    (hes : tree.get? place = some (.folder es)) {name : String} :
    tree.get? (place ++ [name]) = some e ↔ (name, e) ∈ es := by
  have hchild : tree.get? (place ++ [name]) = OrderedMap.get? name es := by
    rw [Entry.get?_append, hes, Option.bind_some, Entry.get?_cons, child?_folder]
    cases OrderedMap.get? name es with
    | none => rfl
    | some d => rfl
  rw [hchild, OrderedMap.get?_eq_some_iff (h.of_get? hes).nodup_keys]

theorem of_mem {es : List (String × Entry)} (h : (folder es).WellFormed) {d : String × Entry}
    (hd : d ∈ es) : d.2.WellFormed := by
  have hget : (folder es).get? ([] ++ [d.1]) = some d.2 := (h.get?_append_singleton rfl).mpr hd
  exact h.of_get? hget

/-- No name on the way to an entry holds a slash. -/
theorem slash_notMem (h : tree.WellFormed) (he : tree.get? place = some e) :
    ∀ name ∈ place, '/' ∉ name.toList := by
  induction place generalizing tree with
  | nil => exact fun _ hmem => absurd hmem List.not_mem_nil
  | cons first rest ih =>
    cases tree with
    | file _ => cases he
    | link _ => cases he
    | closed => cases he
    | folder es =>
      rw [get?_cons, child?_folder] at he
      obtain ⟨d, hd, hrest⟩ := Option.bind_eq_some_iff.mp he
      have hmem := OrderedMap.mem_of_get?_eq_some hd
      intro name hname
      rcases List.mem_cons.mp hname with rfl | hname
      · exact (h [] es rfl).2 name (List.mem_map.mpr ⟨_, hmem, rfl⟩)
      · exact ih (h.of_mem hmem) hrest name hname

end WellFormed

theorem wellFormed_folder {es : List (String × Entry)} (hnodup : (OrderedMap.keys es).Nodup)
    (hslash : ∀ name ∈ OrderedMap.keys es, '/' ∉ name.toList)
    (hinner : ∀ d ∈ es, d.2.WellFormed) : (folder es).WellFormed := by
  intro place ds hds
  cases place with
  | nil =>
    cases hds
    exact ⟨hnodup, hslash⟩
  | cons name rest =>
    rw [get?_cons, child?_folder] at hds
    obtain ⟨d, hd, hrest⟩ := Option.bind_eq_some_iff.mp hds
    exact hinner (name, d) (OrderedMap.mem_of_get?_eq_some hd) rest ds hrest

theorem wellFormed_of_not_folder {e : Entry} (h : e.isFolder = false) : e.WellFormed := by
  intro place es hes
  cases e with
  | folder _ => cases h
  | file _ => cases place <;> cases hes
  | link _ => cases place <;> cases hes
  | closed => cases place <;> cases hes

/-! ### Other orders -/

/-- The entries of a folder in another order: neighbours are swapped, in this folder and in any
folder below it. -/
inductive RelistedAll : List (String × Entry) → List (String × Entry) → Prop
  | nil : RelistedAll [] []
  | cons (d : String × Entry) {es es' : List (String × Entry)} (rest : RelistedAll es es') :
      RelistedAll (d :: es) (d :: es')
  | swap (c d : String × Entry) (es : List (String × Entry)) :
      RelistedAll (c :: d :: es) (d :: c :: es)
  | inside (name : String) {ds ds' : List (String × Entry)} (es : List (String × Entry))
      (inner : RelistedAll ds ds') :
      RelistedAll ((name, .folder ds) :: es) ((name, .folder ds') :: es)
  | trans {es es' es'' : List (String × Entry)} (first : RelistedAll es es')
      (second : RelistedAll es' es'') : RelistedAll es es''

/-- Two trees that differ only in the order of the entries of their folders. -/
inductive Relisted : Entry → Entry → Prop
  | refl (e : Entry) : Relisted e e
  | folder {es es' : List (String × Entry)} (entries : RelistedAll es es') :
      Relisted (.folder es) (.folder es')

namespace RelistedAll

variable {es es' : List (String × Entry)}

/-- Every permutation of the entries is another order of them. -/
theorem of_perm (h : es.Perm es') : RelistedAll es es' := by
  induction h with
  | nil => exact .nil
  | cons d _ ih => exact .cons d ih
  | swap c d es => exact .swap d c es
  | trans _ _ ih ih' => exact .trans ih ih'

theorem symm (h : RelistedAll es es') : RelistedAll es' es := by
  induction h with
  | nil => exact .nil
  | cons d _ ih => exact .cons d ih
  | swap c d es => exact .swap d c es
  | inside name es _ ih => exact .inside name es ih
  | trans _ _ ih ih' => exact .trans ih' ih

/-- So is another order in each of the folders among the entries. -/
theorem of_forall₂ (h : List.Forall₂ (fun c d => c.1 = d.1 ∧ Relisted c.2 d.2) es es') :
    RelistedAll es es' := by
  induction h with
  | nil => exact .nil
  | @cons c d es es' hcd _ ih =>
    obtain ⟨name, e⟩ := c
    obtain ⟨_, e'⟩ := d
    obtain ⟨rfl, he⟩ := hcd
    cases he with
    | refl => exact .cons _ ih
    | folder inner => exact (inside name es inner).trans (.cons _ ih)

/-- The same names are listed. -/
theorem keys_perm (h : RelistedAll es es') : (OrderedMap.keys es).Perm (OrderedMap.keys es') := by
  induction h with
  | nil => exact .nil
  | cons d _ ih => exact .cons d.1 ih
  | swap c d es => exact .swap d.1 c.1 _
  | inside name es _ _ => exact .refl _
  | trans _ _ ih ih' => exact ih.trans ih'

end RelistedAll

namespace Relisted

variable {e e' e'' : Entry}

theorem symm (h : Relisted e e') : Relisted e' e := by
  cases h with
  | refl => exact .refl e
  | folder entries => exact .folder entries.symm

theorem trans (h : Relisted e e') (h' : Relisted e' e'') : Relisted e e'' := by
  cases h with
  | refl => exact h'
  | folder entries =>
    cases h' with
    | refl => exact .folder entries
    | folder entries' => exact .folder (entries.trans entries')

theorem isFolder_eq (h : Relisted e e') : e'.isFolder = e.isFolder := by
  cases h with
  | refl => rfl
  | folder _ => rfl

theorem isDirectory_eq (h : Relisted e e') : e'.isDirectory = e.isDirectory := by
  cases h with
  | refl => rfl
  | folder _ => rfl

theorem option_refl (o : Option Entry) : Option.Rel Relisted o o := by
  cases o with
  | none => exact .none
  | some e => exact .some (.refl e)

theorem option_trans {a b c : Option Entry} (h : Option.Rel Relisted a b)
    (h' : Option.Rel Relisted b c) : Option.Rel Relisted a c := by
  cases h with
  | none => exact h'
  | some hab =>
    cases h' with
    | some hbc => exact .some (hab.trans hbc)

end Relisted

/-- The same entry stands under each name. -/
theorem RelistedAll.get? {es es' : List (String × Entry)} (h : RelistedAll es es')
    (hnodup : (OrderedMap.keys es).Nodup) (name : String) :
    Option.Rel Relisted (OrderedMap.get? name es) (OrderedMap.get? name es') := by
  induction h with
  | nil => exact .none
  | cons d _ ih =>
    rw [OrderedMap.get?_cons, OrderedMap.get?_cons]
    split
    · exact .some (.refl d.2)
    · exact ih (List.nodup_cons.mp hnodup).2
  | swap c d es =>
    -- only one of the two can have the name
    have hne : c.1 ≠ d.1 := by
      intro heq
      rw [OrderedMap.keys_cons, OrderedMap.keys_cons, heq, List.nodup_cons] at hnodup
      exact hnodup.1 List.mem_cons_self
    simp only [OrderedMap.get?_cons]
    by_cases hc : c.1 = name
    · have hd : d.1 ≠ name := fun hd => hne (hc.trans hd.symm)
      simp only [if_pos hc, if_neg hd]
      exact Relisted.option_refl _
    · simp only [if_neg hc]
      exact Relisted.option_refl _
  | inside key es inner _ =>
    rw [OrderedMap.get?_cons, OrderedMap.get?_cons]
    split
    · exact .some (.folder inner)
    · exact Relisted.option_refl _
  | trans first _ ih ih' =>
    have hnodup' := first.keys_perm.nodup_iff.mp hnodup
    exact Relisted.option_trans (ih hnodup) (ih' hnodup')

/-- The same entries stand at the same locations. -/
theorem Relisted.get? {e e' : Entry} (h : Relisted e e') (he : e.WellFormed) (place : Location) :
    Option.Rel Relisted (e.get? place) (e'.get? place) := by
  induction place generalizing e e' with
  | nil => exact .some h
  | cons name rest ih =>
    -- the first name leads to entries that are again the same but for their order
    have hchild : Option.Rel Relisted (e.child? name) (e'.child? name) := by
      cases h with
      | refl => exact option_refl _
      | folder entries => exact entries.get? he.nodup_keys name
    have hinner (d : Entry) (hd : e.child? name = some d) : d.WellFormed := by
      have hget : e.get? [name] = some d := by
        rw [get?_cons, hd]
        rfl
      exact he.of_get? hget
    rw [get?_cons, get?_cons]
    generalize e.child? name = before at hchild hinner ⊢
    generalize e'.child? name = after at hchild ⊢
    cases hchild with
    | none => exact .none
    | @some d d' hd => exact ih hd (hinner d rfl)

theorem Relisted.get?_eq_some {tree tree' e : Entry} (h : Relisted tree tree')
    (htree : tree.WellFormed) {place : Location} (he : tree.get? place = some e) :
    ∃ e', Relisted e e' ∧ tree'.get? place = some e' := by
  have hplace := h.get? htree place
  rw [he] at hplace
  generalize tree'.get? place = after at hplace ⊢
  cases hplace with
  | some hee' => exact ⟨_, hee', rfl⟩

/-- The two trees are well-formed together. -/
theorem Relisted.wellFormed {e e' : Entry} (h : Relisted e e') (he : e.WellFormed) :
    e'.WellFormed := by
  intro place es' hes'
  obtain ⟨d, hget, hd⟩ : ∃ d, e.get? place = some d ∧ Relisted d (.folder es') := by
    have hplace := h.get? he place
    rw [hes'] at hplace
    generalize e.get? place = before at hplace ⊢
    cases hplace with
    | some hd => exact ⟨_, rfl, hd⟩
  cases hd with
  | refl => exact he place es' hget
  | @folder es _ entries =>
    obtain ⟨hnodup, hslash⟩ := he place es hget
    refine ⟨entries.keys_perm.nodup_iff.mp hnodup, fun name hname => ?_⟩
    exact hslash name (entries.keys_perm.mem_iff.mpr hname)

end Entry

namespace Workspace

open Entry

variable {tree tree' : Entry}

/-- Paths lead to the same locations. -/
theorem followNames_relisted (h : Relisted tree tree') (htree : tree.WellFormed) (follow : Bool)
    (links : Nat) (here : Location) (names : List String) :
    followNames tree' follow links here names = followNames tree follow links here names := by
  -- a link uses up one of the links, every other step one of the names
  induction links using Nat.strongRecOn generalizing here names with
  | ind links ihLinks =>
    induction names generalizing here with
    | nil => rw [followNames, followNames]
    | cons name rest ihNames =>
      have hplace := h.get? htree (here ++ [name])
      rw [followNames, followNames]
      split
      · exact ihNames here
      · split
        · exact ihNames here.dropLast
        · split
          · rfl
          · generalize tree.get? (here ++ [name]) = before at hplace ⊢
            generalize tree'.get? (here ++ [name]) = after at hplace ⊢
            cases hplace with
            | none => rfl
            | @some d d' hd =>
              cases hd with
              | folder _ => exact ihNames (here ++ [name])
              | refl =>
                cases d with
                | file _ => rfl
                | closed => rfl
                | folder _ => exact ihNames (here ++ [name])
                | link target =>
                  dsimp only
                  split
                  · rfl
                  · cases links with
                    | zero => rfl
                    | succ n => exact ihLinks n (Nat.lt_succ_self n) _ _

variable {w : Workspace}

theorem find_relisted (h : Relisted w.tree tree') (hw : w.tree.WellFormed) (follow : Bool)
    (path : String) : find { w with tree := tree' } follow path = w.find follow path := by
  have hnames : followNames tree' follow linkLimit []
      (namesOf (absolute { w with tree := tree' } path)) =
        followNames w.tree follow linkLimit [] (namesOf (w.absolute path)) :=
    followNames_relisted h hw follow linkLimit [] (namesOf (w.absolute path))
  unfold find
  dsimp only
  rw [hnames]
  rfl

/-- A path leads to the same entry, or its search fails alike. -/
theorem entry_relisted (h : Relisted w.tree tree') (hw : w.tree.WellFormed) (path : String) :
    (∃ f, w.entry path = .error f ∧ entry { w with tree := tree' } path = .error f) ∨
      ∃ e e', w.entry path = .ok e ∧ entry { w with tree := tree' } path = .ok e' ∧
        Relisted e e' := by
  unfold entry
  rw [find_relisted h hw]
  cases w.find true path with
  | error f => exact .inl ⟨f, rfl, rfl⟩
  | ok p =>
    have hplace := h.get? hw p
    dsimp only [bind, Except.bind]
    generalize w.tree.get? p = before at hplace ⊢
    generalize tree'.get? p = after at hplace ⊢
    cases hplace with
    | none => exact .inl ⟨.missing, rfl, rfl⟩
    | some hd => exact .inr ⟨_, _, rfl, rfl, hd⟩

/-- Entries count as folders in both trees or in neither. -/
theorem countsAsFolder_relisted (h : Relisted w.tree tree') (hw : w.tree.WellFormed)
    (path : String) {e e' : Entry} (he : Relisted e e') :
    countsAsFolder { w with tree := tree' } path e' = countsAsFolder w path e := by
  cases he with
  | folder _ => rfl
  | refl =>
    cases e with
    | file _ => rfl
    | folder _ => rfl
    | closed => rfl
    | link target =>
      unfold countsAsFolder
      obtain ⟨f, hold, hnew⟩ | ⟨d, d', hold, hnew, hd⟩ := entry_relisted h hw path
      · rw [hold, hnew]
      · rw [hold, hnew]
        exact hd.isDirectory_eq

end Workspace

end ScriptHealth
