import ScriptHealth.Proofs.Workspace.Leading

/-!
# Where paths lead without links

In a tree without links, the names of a path alone say where it leads, if it leads anywhere: two
dots go up, and every other name goes down. This holds for all paths, also for those that go up, and
it needs nothing of the tree but that there are no links.

Writing into such a tree never makes a link and takes nothing away, so it may be followed step by
step: folders are made anywhere on the way, and a file is written at the destination of its path.

## Main definitions

* `Entry.LinkFree` — a tree without links
* `Workspace.destination` — where a path leads in such a tree

## Main results

* `Workspace.eq_destination_of_find` — a path leads to its destination
* `Entry.Run.kept` — a run keeps every entry, and its kind
* `Workspace.ran_makeFolders_anywhere`, `Workspace.ran_write_destination` — making folders and
  writing files as runs
* `Workspace.exists_write_of_look` — a file that is there can be overwritten
-/

namespace ScriptHealth

namespace Entry

variable {tree tree' e : Entry} {folders files : Location → Prop}

/-! ### Trees without links -/

/-- A tree without links. -/
def LinkFree (tree : Entry) : Prop := ∀ place target, tree.get? place ≠ some (.link target)

namespace Kept

variable {a b c : Option Entry}

theorem trans (h : Kept a b) (h' : Kept b c) : Kept a c := by
  cases h with
  | same => exact h'
  | folder es es' =>
    cases h' with
    | same => exact .folder es es'
    | folder _ es'' => exact .folder es es''
  | file content content' =>
    cases h' with
    | same => exact .file content content'
    | file _ content'' => exact .file content content''
  | newFolder es =>
    cases h' with
    | same => exact .newFolder es
    | folder _ es' => exact .newFolder es'
  | newFile content =>
    cases h' with
    | same => exact .newFile content
    | file _ content' => exact .newFile content'

/-- What is kept is there, and it is of the same kind. -/
theorem exists_same_kind (h : Kept (some e) b) :
    ∃ e', b = some e' ∧ e'.isFile = e.isFile ∧ e'.isFolder = e.isFolder ∧
      e'.isDirectory = e.isDirectory := by
  cases h with
  | same => exact ⟨e, rfl, rfl, rfl, rfl⟩
  | folder es es' => exact ⟨.folder es', rfl, rfl, rfl, rfl⟩
  | file content content' => exact ⟨.file content', rfl, rfl, rfl, rfl⟩

end Kept

theorem LinkFree.of_kept (h : tree.LinkFree) (hkept : ∀ q, Kept (tree.get? q) (tree'.get? q)) :
    tree'.LinkFree := by
  intro q target hlink
  have hq := hkept q
  rw [hlink] at hq
  generalize hget : tree.get? q = before at hq
  cases hq with
  | same => exact h q target hget

/-- Where something is, an entry stands after it was put there. -/
theorem get?_put_of_some {place : Location} (h : tree.get? place = some e) (new : Entry) :
    (tree.put place new).get? place = some new := by
  rcases List.eq_nil_or_concat' place with rfl | ⟨before, name, rfl⟩
  · rw [put, get?_nil]
  · obtain ⟨es, -, hes, -⟩ := exists_folder_of_get? h
    exact get?_put_self hes name new

/-- A step keeps every entry. -/
theorem Step.kept (h : Step folders files tree tree') (htree : tree.LinkFree) (q : Location) :
    Kept (tree.get? q) (tree'.get? q) := by
  cases h with
  | folder _ hnone => exact kept_put_folder hnone q
  | file content _ hfile => exact kept_put_file hfile (htree _) content q

/-- So does a run, and there are no links behind it. -/
theorem Run.kept (h : Run folders files tree tree') (htree : tree.LinkFree) :
    (∀ q, Kept (tree.get? q) (tree'.get? q)) ∧ tree'.LinkFree := by
  induction h with
  | refl => exact ⟨fun q => .same _, htree⟩
  | tail _ hstep ih =>
    obtain ⟨hkept, hfree⟩ := ih
    exact ⟨fun q => (hkept q).trans (hstep.kept hfree q), hfree.of_kept (hstep.kept hfree)⟩

variable {q : Location} {es : List (String × Entry)}

/-- What is new after a single entry was put somewhere is that entry, or it is above it. -/
theorem isPrefix_of_new {new : Entry} {place : Location}
    (hnew : ∀ name rest, new.get? (name :: rest) = none) (hold : tree.get? q = none)
    (h : (tree.put place new).get? q = some e) : q <+: place ∧ (q = place → e = new) := by
  by_cases hbelow : place <+: q
  · obtain ⟨below, rfl⟩ := hbelow
    rcases get?_put_append tree new place below with hput | hput
    · cases below with
      | nil =>
        rw [List.append_nil] at hput ⊢
        rw [List.append_nil, hput] at h
        exact ⟨List.prefix_refl _, fun _ => (Option.some.inj h).symm⟩
      | cons name rest => cases (hnew name rest).symm.trans (hput.symm.trans h)
    · cases hold.symm.trans (hput.symm.trans h)
  · by_cases habove : q <+: place
    · exact ⟨habove, fun heq => absurd (heq ▸ List.prefix_refl q) hbelow⟩
    · rw [get?_put_of_incomparable hbelow habove, hold] at h
      cases h

/-- A new folder is on the way to a folder or a file that a run puts into the tree. -/
theorem Run.folder_or_isPrefix (h : Run folders files tree tree') (htree : tree.LinkFree)
    (hnew : tree'.get? q = some (.folder es)) : (∃ ds, tree.get? q = some (.folder ds)) ∨
      (∃ place, folders place ∧ q <+: place) ∨ ∃ place, files place ∧ q <+: place ∧ q ≠ place := by
  induction h generalizing es with
  | refl => exact .inl ⟨es, hnew⟩
  | @tail u v hrun hstep ih =>
    have hkept := hstep.kept (Run.kept hrun htree).2 q
    rw [hnew] at hkept
    generalize hget : u.get? q = before at hkept
    cases hkept with
    | same => exact ih hget
    | folder ds _ => exact ih hget
    | newFolder _ =>
      refine .inr ?_
      cases hstep with
      | folder hplace _ => exact .inl ⟨_, hplace, (isPrefix_of_new (fun _ _ => rfl) hget hnew).1⟩
      | file content hplace _ =>
        obtain ⟨habove, heq⟩ := isPrefix_of_new (fun _ _ => rfl) hget hnew
        exact .inr ⟨_, hplace, habove, fun h => nomatch heq h⟩

end Entry

/-- One name of a way: two dots go up, any other name goes down. -/
def Location.next (here : Location) (name : String) : Location :=
  if name = ".." then here.dropLast else here ++ [name]

namespace Workspace

open Entry

variable {w v : Workspace} {path : String} {tree : Entry} {follow : Bool} {links : Nat}
  {here p : Location} {names : List String} {folders files : Location → Prop}

/-! ### Destinations -/

/-- Where a path leads in a tree without links, if it leads anywhere. -/
def destination (w : Workspace) (path : String) : Location := (w.way path).foldl Location.next []

/-- Walks without links are led by the names alone. -/
theorem Leads.eq_foldl_next (h : Leads tree follow links here names p) (htree : tree.LinkFree)
    (hnames : ∀ name ∈ names, Path.IsNamed name.toList) : p = names.foldl Location.next here := by
  -- along the walk: names that say nothing do not occur, and there are no links to follow
  induction h with
  | stay links here => rfl
  | @blank links here p name rest hname next ih =>
    obtain ⟨hfirst, -⟩ := List.forall_mem_cons.mp hnames
    rcases hname with rfl | rfl
    · exact absurd rfl hfirst.1
    · exact absurd rfl hfirst.2.1
  | up next ih =>
    rw [List.foldl_cons, Location.next, if_pos rfl]
    exact ih (List.forall_mem_cons.mp hnames).2
  | stop hname hfolder hlink =>
    rw [List.foldl_cons, List.foldl_nil, Location.next, if_neg hname.2.1]
  | enter hname hget next ih =>
    rw [List.foldl_cons, Location.next, if_neg hname.2.1]
    exact ih (List.forall_mem_cons.mp hnames).2
  | link hname hget hfollow next ih => exact absurd hget (htree _ _)

theorem isNamed_of_mem_wayOf {name : String} (h : name ∈ wayOf path) :
    Path.IsNamed name.toList := by
  obtain ⟨s, hs, rfl⟩ := List.mem_map.mp h
  rw [String.toList_ofList]
  exact Path.isNamed_of_mem_namedSegments hs

/-- A path leads to its destination. -/
theorem eq_destination_of_find (hw : w.tree.LinkFree) (h : w.find follow path = .ok p) :
    p = w.destination path := by
  rw [find_eq] at h
  split at h
  · cases h
  · split at h
    · cases h
    · split at h
      · cases h
      · exact (leads_of_followNames h).eq_foldl_next hw fun _ => isNamed_of_mem_wayOf

/-- The destination of a name in a folder. -/
theorem destination_under_name (w : Workspace) (dir : String) {name : String}
    (h : Location.IsName name) : w.destination (under dir name) = w.destination dir ++ [name] := by
  rw [destination, way_under_name w dir h, List.foldl_append, List.foldl_cons, List.foldl_nil,
    Location.next, if_neg h.2]
  rfl

/-! ### Writing -/

namespace Ran

theorem destination_eq (h : Ran folders files w v) (path : String) :
    v.destination path = w.destination path := by
  rw [destination, h.way_eq]
  rfl

theorem kept (h : Ran folders files w v) (hw : w.tree.LinkFree) :
    (∀ q, Kept (w.tree.get? q) (v.tree.get? q)) ∧ v.tree.LinkFree := by
  obtain ⟨tree', rfl, hrun⟩ := h
  exact hrun.kept hw

/-- The files that are not written are the same. -/
theorem file_iff (h : Ran folders files w v) (hp : ¬files p) {content : ByteArray} :
    v.tree.get? p = some (.file content) ↔ w.tree.get? p = some (.file content) := by
  obtain ⟨tree', rfl, hrun⟩ := h
  exact (hrun.grown hp).file_iff

end Ran

/-- Making a folder and the folders that it is in only makes folders. -/
theorem ran_makeFolders_anywhere (w : Workspace) (path : String) (n : Nat) :
    Ran (fun _ => True) (fun _ => False) w (w.makeFolders path n).1 := by
  apply makeFolders_invariant (Q := fun _ => True) (fun _ => id) ?_ trivial (.refl w)
  intro u v p _ hu hmade
  obtain ⟨place, -, hmade⟩ := Outcome.bind_eq_ok.mp hmade
  split at hmade
  · cases hmade
  · rename_i hnone
    obtain rfl := Except.ok.inj hmade
    exact hu.trans ⟨_, rfl, .single (.folder trivial hnone)⟩

/-- Writing a file puts it at the destination of its path. -/
theorem eq_put_of_write (hw : w.tree.LinkFree) {content : ByteArray}
    (h : w.write path content = .ok v) :
    v = { w with tree := w.tree.put (w.destination path) (.file content) } ∧
      w.tree.IsWritable (w.destination path) := by
  obtain ⟨place, hfind, hfile, hv⟩ := write_eq_ok_iff.mp h
  rw [← eq_destination_of_find hw hfind]
  exact ⟨hv, hfile⟩

/-- Writing a file touches only the destination of its path. -/
theorem ran_write_destination (hw : w.tree.LinkFree) {content : ByteArray}
    (h : w.write path content = .ok v) : Ran (fun _ => True) (· = w.destination path) w v := by
  obtain ⟨hv, hfile⟩ := eq_put_of_write hw h
  exact ⟨_, hv, .single (.file content rfl hfile)⟩

/-- A file that was written is at the destination of its path. -/
theorem get?_destination_of_write (hw : w.tree.LinkFree) (htop : w.tree.isFolder = true)
    {content : ByteArray} (h : w.write path content = .ok v) :
    v.tree.get? (w.destination path) = some (.file content) := by
  obtain ⟨top, htop⟩ := isFolder_iff.mp htop
  obtain ⟨place, hfind, hwrite⟩ := exists_write h ⟨top, by rw [get?_nil, htop]⟩
  obtain ⟨tree', hwritten, -, hget, -⟩ := hwrite content
  rw [h] at hwritten
  rw [Except.ok.inj hwritten, ← eq_destination_of_find hw hfind]
  exact hget

/-- A file that is there can be overwritten, and the new content is there then. -/
theorem exists_write_of_look {content : ByteArray}
    (h : w.look path = .ok (some (.file content))) (content' : ByteArray) :
    ∃ after, w.write path content' = .ok after ∧
      after.look path = .ok (some (.file content')) := by
  obtain ⟨place, hfind, hget⟩ := look_eq_some_iff.mp h
  have hfile := isWritable_of_file hget
  have hlink : ∀ target, w.tree.get? place ≠ some (.link target) := by simp [hget]
  refine ⟨_, write_of_find hfind hfile content', look_eq_some_iff.mpr ⟨place, ?_, ?_⟩⟩
  · exact find_of_kept hfind (kept_put_file hfile hlink content')
  · exact get?_put_of_some hget _

end Workspace

end ScriptHealth
