import ScriptHealth.Proofs.Data.Outcome
import ScriptHealth.Proofs.Workspace.Way
import Mathlib.Logic.Relation

/-!
# What writing changes

Writing puts files and empty folders into a tree, one after the other. Such a run never takes
anything away: folders stay folders and files stay as they are, except for the files that are
written. Entries that no written location is above or below do not change at all.

## Main definitions

* `Entry.Step` — one folder is made, or one file is written
* `Entry.Run` — any number of such steps
* `Entry.Grown` — an entry before and after: the same, a folder both times, or a new folder

## Main results

* `Entry.get?_put_of_incomparable`, `Entry.grown_put_of_prefix`, `Entry.get?_put_append` — what
  stands at a location after something was put at another one
* `Entry.Run.grown` — entries that are not written only grow
* `Entry.Run.get?_eq` — entries away from all written locations stay the same
* `Workspace.makeFolders_invariant` — what making one folder keeps, making several keeps
* `Workspace.ran_makeFolders`, `Workspace.ran_write` — making folders and writing files are such
  runs
-/

namespace ScriptHealth

namespace Entry

variable {tree tree' new : Entry} {place q : Location}

/-! ### Putting one entry -/

/-- What stands neither above nor below a location is not touched by putting an entry there. -/
theorem get?_put_of_incomparable (h : ¬place <+: q) (h' : ¬q <+: place) (tree new : Entry) :
    (tree.put place new).get? q = tree.get? q := by
  induction place generalizing tree q with
  | nil => exact absurd (List.nil_prefix) h
  | cons name rest ih =>
    cases q with
    | nil => exact absurd (List.nil_prefix) h'
    | cons first others =>
      cases tree with
      | file _ => rfl
      | link _ => rfl
      | closed => rfl
      | folder es =>
        rw [put, get?_cons, get?_cons, child?_folder, child?_folder, OrderedMap.get?_insert]
        by_cases hname : first = name
        · subst hname
          rw [List.cons_prefix_cons, not_and] at h h'
          rw [if_pos rfl, Option.bind_some, ih (h rfl) (h' rfl)]
          cases hget : OrderedMap.get? first es with
          | some d => rfl
          | none =>
            -- a folder that was just made has nothing in it
            cases others with
            | nil => exact absurd List.nil_prefix (h' rfl)
            | cons next more => rfl
        · rw [if_neg hname]

/-- An entry before and after something was put elsewhere: it is the same, it is a folder both
times, or a folder was made where there was nothing. -/
inductive Grown : Option Entry → Option Entry → Prop
  | same (o : Option Entry) : Grown o o
  | folder (es es' : List (String × Entry)) : Grown (some (.folder es)) (some (.folder es'))
  | made (es : List (String × Entry)) : Grown none (some (.folder es))

namespace Grown

variable {a b c : Option Entry}

theorem trans (h : Grown a b) (h' : Grown b c) : Grown a c := by
  cases h with
  | same => exact h'
  | folder es es' =>
    cases h' with
    | same => exact .folder es es'
    | folder _ es'' => exact .folder es es''
  | made es =>
    cases h' with
    | same => exact .made es
    | folder _ es' => exact .made es'

/-- A folder stays a folder. -/
theorem isFolder {es : List (String × Entry)} (h : Grown (some (.folder es)) b) :
    ∃ es', b = some (.folder es') := by
  cases h with
  | same => exact ⟨es, rfl⟩
  | folder _ es' => exact ⟨es', rfl⟩

/-- The files are the same before and after. -/
theorem file_iff (h : Grown a b) {content : ByteArray} :
    b = some (.file content) ↔ a = some (.file content) := by
  cases h with
  | same => exact Iff.rfl
  | folder es es' => exact ⟨fun h => (nomatch h), fun h => (nomatch h)⟩
  | made es => exact ⟨fun h => (nomatch h), fun h => (nomatch h)⟩

end Grown

/-- What stands above a location grows when an entry is put there. -/
theorem grown_put_of_prefix (h : q <+: place) (hne : q ≠ place) (tree new : Entry) :
    Grown (tree.get? q) ((tree.put place new).get? q) := by
  induction place generalizing tree q with
  | nil => exact absurd (List.prefix_nil.mp h) hne
  | cons name rest ih =>
    cases tree with
    | file _ => exact .same _
    | link _ => exact .same _
    | closed => exact .same _
    | folder es =>
      cases q with
      | nil => exact .folder _ _
      | cons first others =>
        obtain ⟨rfl, hrest⟩ := List.cons_prefix_cons.mp h
        have hne' : others ≠ rest := fun heq => hne (heq ▸ rfl)
        rw [put, get?_cons, get?_cons, child?_folder, child?_folder, OrderedMap.get?_insert,
          if_pos rfl, Option.bind_some]
        cases hget : OrderedMap.get? first es with
        | some d => exact ih hrest hne' d
        | none =>
          -- the folder on the way is made here, and what is below it grows from nothing
          have hbelow := ih hrest hne' (.folder [])
          cases others with
          | nil =>
            obtain ⟨es', hes'⟩ := hbelow.isFolder
            rw [Option.getD_none, hes']
            exact .made es'
          | cons next more => exact hbelow

/-- At and below a location stands what was put there, or putting it there was not possible. -/
theorem get?_put_append (tree new : Entry) (place below : Location) :
    (tree.put place new).get? (place ++ below) = new.get? below ∨
      (tree.put place new).get? (place ++ below) = tree.get? (place ++ below) := by
  induction place generalizing tree with
  | nil => exact Or.inl (by rw [put, List.nil_append])
  | cons name rest ih =>
    cases tree with
    | file _ => exact Or.inr rfl
    | link _ => exact Or.inr rfl
    | closed => exact Or.inr rfl
    | folder es =>
      rw [put, List.cons_append, get?_cons, get?_cons, child?_folder, child?_folder,
        OrderedMap.get?_insert, if_pos rfl, Option.bind_some]
      cases hget : OrderedMap.get? name es with
      | some d => exact ih d
      | none =>
        cases rest with
        | nil => exact Or.inl (by rw [put, List.nil_append])
        | cons next more => exact ih (.folder [])

/-- In a folder that is there, an entry stands where it was put. -/
theorem get?_put_self {es : List (String × Entry)} (h : tree.get? place = some (.folder es))
    (name : String) (new : Entry) :
    (tree.put (place ++ [name]) new).get? (place ++ [name]) = some new := by
  induction place generalizing tree with
  | nil =>
    cases h
    rw [List.nil_append, put, get?_cons, child?_folder, OrderedMap.get?_insert, if_pos rfl, put]
    rfl
  | cons first rest ih =>
    cases tree with
    | file _ => cases h
    | link _ => cases h
    | closed => cases h
    | folder ds =>
      rw [get?_cons, child?_folder] at h
      obtain ⟨d, hd, hrest⟩ := Option.bind_eq_some_iff.mp h
      rw [List.cons_append, put, get?_cons, child?_folder, OrderedMap.get?_insert, if_pos rfl,
        Option.bind_some, hd]
      exact ih hrest

theorem IsPlain.put (h : tree.IsPlain) (hplace : ∀ name ∈ place, Location.IsName name)
    (hnew : new.IsPlain) : (tree.put place new).IsPlain := by
  induction place generalizing tree with
  | nil => exact hnew
  | cons name rest ih =>
    cases tree with
    | file _ => exact h
    | link _ => exact h
    | closed => exact h
    | folder es =>
      obtain ⟨hnodup, hnames⟩ := h.names [] es rfl
      have hinner {d : Entry} (hd : d.IsPlain) : (d.put rest new).IsPlain :=
        ih hd fun n hn => hplace n (List.mem_cons_of_mem name hn)
      have hentries : ∀ d ∈ es, d.2.IsPlain := fun d hd => h.of_mem hd
      refine isPlain_folder (OrderedMap.nodup_keys_insert hnodup _ _) ?_ ?_
      · intro n hn
        rw [OrderedMap.keys_insert] at hn
        split at hn
        · exact hnames n hn
        · rcases List.mem_append.mp hn with hn | hn
          · exact hnames n hn
          · rw [List.mem_singleton.mp hn]
            exact hplace name List.mem_cons_self
      · intro d hd
        rcases OrderedMap.mem_insert hd with rfl | hd
        · refine hinner ?_
          cases hget : OrderedMap.get? name es with
          | none => exact isPlain_folder List.nodup_nil (by simp) (by simp)
          | some e => exact hentries (name, e) (OrderedMap.mem_of_get?_eq_some hget)
        · exact hentries d hd

/-! ### Runs -/

/-- A file can be put at a location: no folder stands there, neither an open nor a closed one. -/
def IsWritable (tree : Entry) (place : Location) : Prop :=
  ∀ e, tree.get? place = some e → e.isDirectory = false

theorem isWritable_of_none (h : tree.get? place = none) : tree.IsWritable place := by
  intro e he
  cases h.symm.trans he

theorem isWritable_of_file {content : ByteArray} (h : tree.get? place = some (.file content)) :
    tree.IsWritable place := by
  intro e he
  cases h.symm.trans he
  rfl

theorem IsWritable.ne_folder (h : tree.IsWritable place) (es : List (String × Entry)) :
    tree.get? place ≠ some (.folder es) := fun hes => Bool.noConfusion (h _ hes)

/-- One step of writing: an empty folder is made where there is nothing, or a file is written where
there is no folder. -/
inductive Step (folders files : Location → Prop) : Entry → Entry → Prop
  | folder {tree : Entry} {place : Location} (hplace : folders place)
      (hnone : tree.get? place = none) : Step folders files tree (tree.put place (.folder []))
  | file {tree : Entry} {place : Location} (content : ByteArray) (hplace : files place)
      (hfile : tree.IsWritable place) :
      Step folders files tree (tree.put place (.file content))

/-- Any number of steps. -/
abbrev Run (folders files : Location → Prop) : Entry → Entry → Prop :=
  Relation.ReflTransGen (Step folders files)

variable {folders files : Location → Prop}

/-- Behind what is no folder there is nothing. -/
theorem get?_append_of_not_folder (h : ∀ es, tree.get? place ≠ some (.folder es)) (name : String)
    (rest : Location) : tree.get? (place ++ name :: rest) = none := by
  by_contra hsome
  obtain ⟨e, he⟩ := Option.ne_none_iff_exists'.mp hsome
  obtain ⟨es, -, hes, -⟩ := exists_folder_of_get? he
  exact h es hes

/-- A step leaves every entry that it does not write as it is, or lets it grow. -/
theorem Step.grown (h : Step folders files tree tree') (hq : ¬files q) :
    Grown (tree.get? q) (tree'.get? q) := by
  -- above the location that is written entries grow, and elsewhere they stay
  have hput {place : Location} {new : Entry}
      (hat : place <+: q → Grown (tree.get? q) ((tree.put place new).get? q)) :
      Grown (tree.get? q) ((tree.put place new).get? q) := by
    by_cases hbelow : place <+: q
    · exact hat hbelow
    · by_cases habove : q <+: place
      · exact grown_put_of_prefix habove (fun heq => hbelow (heq ▸ List.prefix_refl q)) tree new
      · rw [get?_put_of_incomparable hbelow habove]
        exact .same _
  -- below a location that holds no folder there is nothing, neither before nor after
  have hrest {place : Location} {new : Entry} {name : String} {rest : Location}
      (hnone : ∀ es, tree.get? place ≠ some (.folder es)) (hnew : new.get? (name :: rest) = none) :
      Grown (tree.get? (place ++ name :: rest))
        ((tree.put place new).get? (place ++ name :: rest)) := by
    rcases get?_put_append tree new place (name :: rest) with hput | hput
    · rw [hput, hnew, get?_append_of_not_folder hnone]
      exact .same none
    · rw [hput]
      exact .same _
  cases h with
  | folder hplace hnone =>
    refine hput ?_
    rintro ⟨below, rfl⟩
    cases below with
    | cons name rest => exact hrest (by simp [hnone]) rfl
    | nil =>
      rw [List.append_nil] at hput ⊢
      rcases get?_put_append tree (.folder []) _ [] with hput | hput
      · rw [List.append_nil] at hput
        rw [hput, hnone]
        exact .made []
      · rw [List.append_nil] at hput
        rw [hput]
        exact .same _
  | file content hplace hfile =>
    refine hput ?_
    rintro ⟨below, rfl⟩
    cases below with
    | cons name rest => exact hrest hfile.ne_folder rfl
    | nil => exact absurd (by rwa [List.append_nil]) hq

/-- Away from the location that it writes, a step changes nothing. -/
theorem Step.get?_eq (h : Step folders files tree tree')
    (hq : ∀ place, folders place ∨ files place → ¬place <+: q ∧ ¬q <+: place) :
    tree'.get? q = tree.get? q := by
  cases h with
  | folder hplace _ =>
    obtain ⟨hbelow, habove⟩ := hq _ (Or.inl hplace)
    exact get?_put_of_incomparable hbelow habove _ _
  | file _ hplace _ =>
    obtain ⟨hbelow, habove⟩ := hq _ (Or.inr hplace)
    exact get?_put_of_incomparable hbelow habove _ _

namespace Run

/-- Entries that are not written only grow. -/
theorem grown (h : Run folders files tree tree') (hq : ¬files q) :
    Grown (tree.get? q) (tree'.get? q) := by
  induction h with
  | refl => exact .same _
  | tail _ hstep ih => exact ih.trans (hstep.grown hq)

/-- Entries away from all locations that are written stay the same. -/
theorem get?_eq (h : Run folders files tree tree')
    (hq : ∀ place, folders place ∨ files place → ¬place <+: q ∧ ¬q <+: place) :
    tree'.get? q = tree.get? q := by
  induction h with
  | refl => rfl
  | tail _ hstep ih => rw [hstep.get?_eq hq, ih]

theorem isPlain (h : Run folders files tree tree') (htree : tree.IsPlain)
    (hnames : ∀ place, folders place ∨ files place → ∀ name ∈ place, Location.IsName name) :
    tree'.IsPlain := by
  induction h with
  | refl => exact htree
  | tail _ hstep ih =>
    cases hstep with
    | folder hplace _ =>
      exact ih.put (hnames _ (Or.inl hplace))
        (isPlain_folder List.nodup_nil (by simp) (by simp))
    | file content hplace _ => exact ih.put (hnames _ (Or.inr hplace)) (isPlain_file content)

theorem mono {folders' files' : Location → Prop} (h : Run folders files tree tree')
    (hfolders : ∀ place, folders place → folders' place)
    (hfiles : ∀ place, files place → files' place) : Run folders' files' tree tree' := by
  induction h with
  | refl => exact .refl
  | tail _ hstep ih =>
    refine ih.tail ?_
    cases hstep with
    | folder hplace hnone => exact .folder (hfolders _ hplace) hnone
    | file content hplace hfile => exact .file content (hfiles _ hplace) hfile

/-- No folder is made above a folder that is there. -/
theorem restrict {root : Location} {es : List (String × Entry)}
    (h : Run folders files tree tree') (hroot : tree.get? root = some (.folder es))
    (hfiles : ¬files root) :
    Run (fun place => folders place ∧ ¬place <+: root) files tree tree' := by
  induction h with
  | refl => exact .refl
  | @tail u v hrun hstep ih =>
    refine ih.tail ?_
    cases hstep with
    | folder hplace hnone =>
      refine .folder ⟨hplace, ?_⟩ hnone
      rintro ⟨below, rfl⟩
      obtain ⟨ds, hds⟩ := (hroot ▸ grown hrun hfiles).isFolder
      cases below with
      | nil =>
        rw [List.append_nil, hnone] at hds
        cases hds
      | cons name rest =>
        obtain ⟨_, _, hfolder, -⟩ := exists_folder_of_get? hds
        rw [hnone] at hfolder
        cases hfolder
    | file content hplace hfile => exact .file content hplace hfile

end Run

end Entry

namespace Workspace

open Entry

variable {w v u : Workspace} {path : String} {area : Location} {folders files : Location → Prop}

/-- A workspace after a run: only its tree has changed. -/
def Ran (folders files : Location → Prop) (w v : Workspace) : Prop :=
  ∃ tree', v = { w with tree := tree' } ∧ Run folders files w.tree tree'

namespace Ran

theorem refl (w : Workspace) : Ran folders files w w := ⟨w.tree, rfl, .refl⟩

theorem trans (h : Ran folders files w v) (h' : Ran folders files v u) :
    Ran folders files w u := by
  obtain ⟨tree', rfl, hrun⟩ := h
  obtain ⟨tree'', rfl, hrun'⟩ := h'
  exact ⟨tree'', rfl, hrun.trans hrun'⟩

theorem mono {folders' files' : Location → Prop} (h : Ran folders files w v)
    (hfolders : ∀ place, folders place → folders' place)
    (hfiles : ∀ place, files place → files' place) : Ran folders' files' w v := by
  obtain ⟨tree', rfl, hrun⟩ := h
  exact ⟨tree', rfl, hrun.mono hfolders hfiles⟩

theorem isPlain (h : Ran folders files w v) (hw : w.tree.IsPlain)
    (hnames : ∀ place, folders place ∨ files place → ∀ name ∈ place, Location.IsName name) :
    v.tree.IsPlain := by
  obtain ⟨tree', rfl, hrun⟩ := h
  exact hrun.isPlain hw hnames

/-- Ways do not depend on the tree. -/
theorem way_eq (h : Ran folders files w v) (path : String) : v.way path = w.way path := by
  obtain ⟨tree', rfl, -⟩ := h
  rfl

end Ran

theorem ran_makeFolder (hw : w.tree.IsPlain) (harea : w.way path <+: area)
    (hnames : ∀ name ∈ area, Location.IsName name) (h : w.makeFolder path = .ok v) :
    Ran (· <+: area) files w v := by
  obtain ⟨place, hfind, h⟩ := Outcome.bind_eq_ok.mp h
  have hway : ∀ name ∈ w.way path, Location.IsName name := fun name hname =>
    hnames name (harea.subset hname)
  rw [← eq_way_of_find hw.noLink hway hfind] at harea
  split at h
  · cases h
  · rename_i hnone
    obtain rfl := Except.ok.inj h
    exact ⟨_, rfl, .single (.folder harea hnone)⟩

/-- What making one folder keeps, for a path and those of the folders that it is in, making all of
these folders keeps. -/
theorem makeFolders_invariant {P : Workspace → Prop} {Q : String → Prop}
    (hparent : ∀ p, Q p → Q (parentOf p))
    (hstep : ∀ u v p, Q p → P u → u.makeFolder p = .ok v → P v) (hpath : Q path) (hw : P w)
    (n : Nat) : P (w.makeFolders path n).1 := by
  induction n generalizing w path with
  | zero => exact hw
  | succ n ih =>
    unfold makeFolders
    split
    · rename_i v hmade
      exact hstep w v path hpath hw hmade
    · split
      · exact hw
      · -- the folder above is made first, and then this one in what has become of the tree
        have habove := ih (hparent path hpath) hw
        split
        · rename_i v f hfolders
          rw [hfolders] at habove
          exact habove
        · rename_i v hfolders
          rw [hfolders] at habove
          split
          · rename_i u hmade
            exact hstep v u path hpath habove hmade
          · exact habove
    · exact hw

/-- Making a folder and the folders that it is in is a run on its way. -/
theorem ran_makeFolders (hw : w.tree.IsPlain) (harea : w.way path <+: area)
    (hnames : ∀ name ∈ area, Location.IsName name) (n : Nat) :
    Ran (· <+: area) (fun _ => False) w (w.makeFolders path n).1 := by
  apply makeFolders_invariant (Q := fun p => w.way p <+: area)
  · intro p hp
    exact (way_parentOf_isPrefix w p).trans hp
  · intro u v p hp hu hmade
    have hplain : u.tree.IsPlain := by
      refine hu.isPlain hw ?_
      rintro place (hplace | ⟨⟨⟩⟩) name hname
      exact hnames name (hplace.subset hname)
    exact hu.trans (ran_makeFolder hplain (by rwa [hu.way_eq]) hnames hmade)
  · exact harea
  · exact .refl w

/-- A file is written at the location that its path leads to, unless there is a folder. -/
theorem write_eq_ok_iff {content : ByteArray} : w.write path content = .ok v ↔
    ∃ place, w.find true path = .ok place ∧ w.tree.IsWritable place ∧
      v = { w with tree := w.tree.put place (.file content) } := by
  unfold write
  rw [Outcome.bind_eq_ok]
  refine exists_congr fun place => and_congr_right fun _ => ?_
  unfold IsWritable
  cases w.tree.get? place with
  | none => exact ⟨by rintro ⟨⟩; exact ⟨nofun, rfl⟩, by rintro ⟨-, rfl⟩; rfl⟩
  | some e =>
    cases e with
    | file _ => exact ⟨by rintro ⟨⟩; exact ⟨by rintro _ ⟨⟩; rfl, rfl⟩, by rintro ⟨-, rfl⟩; rfl⟩
    | link _ => exact ⟨by rintro ⟨⟩; exact ⟨by rintro _ ⟨⟩; rfl, rfl⟩, by rintro ⟨-, rfl⟩; rfl⟩
    | closed => exact ⟨nofun, fun h => Bool.noConfusion (h.1 _ rfl)⟩
    | folder _ => exact ⟨nofun, fun h => Bool.noConfusion (h.1 _ rfl)⟩

/-- Writing a file is a run that touches only the way of its path. -/
theorem ran_write (hw : w.tree.IsPlain) (hway : ∀ name ∈ w.way path, Location.IsName name)
    (hfiles : files (w.way path)) {content : ByteArray} (h : w.write path content = .ok v) :
    Ran folders files w v := by
  obtain ⟨place, hfind, hfile, rfl⟩ := write_eq_ok_iff.mp h
  rw [← eq_way_of_find hw.noLink hway hfind] at hfiles
  exact ⟨_, rfl, .single (.file content hfiles hfile)⟩

/-- A file that was written is there. -/
theorem get?_of_write (hw : w.tree.IsPlain) (hway : ∀ name ∈ w.way path, Location.IsName name)
    (htop : w.tree.isFolder = true) {before : Location} {name : String}
    (hsplit : w.way path = before ++ [name]) {content : ByteArray}
    (h : w.write path content = .ok v) : v.tree.get? (before ++ [name]) = some (.file content) := by
  obtain ⟨place, hfind, -, rfl⟩ := write_eq_ok_iff.mp h
  obtain ⟨es, hes⟩ := exists_folder_of_find hw.noLink hway htop hsplit hfind
  rw [eq_way_of_find hw.noLink hway hfind, hsplit]
  exact get?_put_self hes name _

end Workspace

end ScriptHealth
