import ScriptHealth.Proofs.Data.Outcome
import ScriptHealth.Proofs.Text.Segments
import ScriptHealth.Proofs.Workspace.Relisting
import Mathlib.Data.List.Sort

/-!
# The files below a folder

The listing of a folder runs through the folders below it, and at each of them it leaves out names,
sorts the others and goes on below. What comes out can be said without the run: a file is listed
exactly if it is wanted by its own name, every folder on the way to it is entered, and the path of
the last of these folders is not too long. A folder that cannot be listed is passed over, and the run
says which ones these are. The order of the listing is an order of the locations themselves. A list
is determined by what it holds and by such an order, so trees that are only listed in another order
have the same listing.

## Main definitions

* `Location.Before` — the order of the listing
* `Workspace.Selected` — which files are selected by their names and those of their folders
* `Workspace.Listed` — which of them are reached
* `Workspace.Skipped` — which folders are passed over

## Main results

* `Workspace.mem_filesBelow` — exactly the listed files are below a folder
* `Workspace.mem_skippedBelow` — exactly the folders that cannot be listed are passed over
* `Workspace.Selected.listed_or_skipped` — a selected file is listed, or it is in a folder that is
  passed over
* `Workspace.pairwise_filesBelow` — the listed files are in the order of the listing
* `Workspace.filesBelow_relisted`, `Workspace.skippedBelow_relisted` — neither list depends on the
  order of the entries
-/

namespace ScriptHealth

namespace Location

/-- The order of a listing: the files of a folder by name, and then those of its folders by name. -/
inductive Before : Location → Location → Prop
  | files {a b : String} (h : a < b) : Before [a] [b]
  | fileFirst (a b c : String) (rest : Location) : Before [a] (b :: c :: rest)
  | folders {a b : String} {p q : Location} (h : a < b) (hp : p ≠ []) (hq : q ≠ []) :
      Before (a :: p) (b :: q)
  | inside (a : String) {p q : Location} (h : Before p q) : Before (a :: p) (a :: q)

namespace Before

variable {p q : Location}

theorem ne_nil (h : Before p q) : p ≠ [] ∧ q ≠ [] := by
  cases h <;> simp

/-- No location is before one that is before it. -/
theorem asymm (h : Before p q) : ¬Before q p := by
  induction h with
  | files h =>
    rintro (h' | _ | ⟨_, hp, _⟩ | ⟨_, h'⟩)
    · exact String.lt_asymm h h'
    · exact hp rfl
    · exact h'.ne_nil.1 rfl
  | fileFirst a b c rest =>
    rintro (_ | _ | ⟨_, _, hq⟩ | ⟨_, h'⟩)
    · exact hq rfl
    · exact h'.ne_nil.2 rfl
  | folders h hp hq =>
    rintro (_ | _ | ⟨h', _, _⟩ | ⟨_, _⟩)
    · exact hp rfl
    · exact hq rfl
    · exact String.lt_asymm h h'
    · exact String.lt_irrefl _ h
  | inside a h ih =>
    rintro (_ | _ | ⟨h', _, _⟩ | ⟨_, h'⟩)
    · exact h.ne_nil.1 rfl
    · exact h.ne_nil.2 rfl
    · exact String.lt_irrefl _ h'
    · exact ih h'

end Before

instance : Std.Irrefl Before := ⟨fun _ h => h.asymm h⟩

instance : Std.Antisymm Before := ⟨fun _ _ h h' => absurd h' h.asymm⟩

/-- Different locations without slashes in their names have different paths. -/
theorem eq_of_intercalate_eq {p q : Location} (hp : p ≠ []) (hq : q ≠ [])
    (hslash : ∀ name ∈ p, '/' ∉ name.toList) (hslash' : ∀ name ∈ q, '/' ∉ name.toList)
    (h : "/".intercalate p = "/".intercalate q) : p = q := by
  -- no name holds the separator, so the names are read back from the path
  have hread {r : Location} (hr : r ≠ []) (hslash : ∀ name ∈ r, '/' ∉ name.toList) :
      Text.splitAt '/' ("/".intercalate r).toList = r.map String.toList := by
    have hpieces : ∀ piece ∈ r.map String.toList, '/' ∉ piece := by
      simpa using hslash
    have hsep : "/".toList = ['/'] := rfl
    rw [String.toList_intercalate, hsep, ← Text.joinWith_eq_intercalate]
    exact Text.splitAt_joinWith (by simpa using hr) hpieces
  have hnames : p.map String.toList = q.map String.toList := by
    rw [← hread hp hslash, h, hread hq hslash']
  exact List.map_injective_iff.mpr (fun _ _ => String.toList_injective) hnames

end Location

namespace Workspace

open Entry Location

/-! ### Paths of locations -/

@[simp] theorem pathBelow_nil (path : String) : pathBelow path [] = path := rfl

@[simp] theorem pathBelow_cons (path name : String) (place : Location) :
    pathBelow path (name :: place) = pathBelow (join path name) place := rfl

theorem utf8ByteSize_add_le_join (path name : String) :
    path.utf8ByteSize + name.utf8ByteSize ≤ (join path name).utf8ByteSize := by
  unfold join
  split
  · rw [String.utf8ByteSize_append]
  · rw [String.utf8ByteSize_append, String.utf8ByteSize_append]
    omega

open scoped Number.Plain in
/-- On the way down the path grows at least by the names. -/
theorem utf8ByteSize_add_le_pathBelow (path : String) (place : Location) :
    path.utf8ByteSize + (place.map String.utf8ByteSize).sum ≤
      (pathBelow path place).utf8ByteSize := by
  induction place generalizing path with
  | nil => exact Nat.le_refl _
  | cons name rest ih =>
    have hjoin := utf8ByteSize_add_le_join path name
    have hrest := ih (join path name)
    rw [pathBelow_cons, List.map_cons, List.sum_cons]
    omega

theorem utf8ByteSize_le_pathBelow (path : String) (place : Location) :
    path.utf8ByteSize ≤ (pathBelow path place).utf8ByteSize :=
  (Nat.le_add_right _ _).trans (utf8ByteSize_add_le_pathBelow path place)

theorem utf8ByteSize_pathBelow_le_of_isPrefix (path : String) {place folders : Location}
    (h : folders <+: place) :
    (pathBelow path folders).utf8ByteSize ≤ (pathBelow path place).utf8ByteSize := by
  obtain ⟨rest, rfl⟩ := h
  rw [pathBelow, pathBelow, List.foldl_append]
  exact utf8ByteSize_le_pathBelow _ rest

/-! ### What is listed -/

/-- Whether the entry at a path counts as a folder: it is one, or a link that leads to one. -/
def LeadsToFolder (w : Workspace) (path : String) : Entry → Prop
  | .file _ => False
  | .folder _ | .closed => True
  | .link _ => ∃ e, w.entry path = .ok e ∧ e.isDirectory = true

/-- A file is selected below a root, given by its path and its location: the last name leads to
something that is no folder and is wanted, and each name on the way is one of a folder that is
entered. -/
structure Selected (w : Workspace) (s : Selection) (root : String) (place folders : Location)
    (name : String) : Prop where
  isFile : ∃ e, w.tree.get? (place ++ (folders ++ [name])) = some e ∧
    ¬LeadsToFolder w (pathBelow root (folders ++ [name])) e
  isVisible : name.toList.head? ≠ some '.'
  notExcluded : name ∉ s.excludeFiles
  isWanted : String.ofList (Path.nameSuffix name.toList) ∈ s.extensions
  way : ∀ before folder after, folders = before ++ folder :: after →
    (∃ es, w.tree.get? (place ++ (before ++ [folder])) = some (.folder es)) ∧
      folder.toList.head? ≠ some '.' ∧ folder ∉ s.excludeFolders

/-- A file is listed below a root: it is selected, and its folder can be listed by its path. -/
structure Listed (w : Workspace) (s : Selection) (root : String) (place folders : Location)
    (name : String) : Prop extends Selected w s root place folders name where
  isReached : (pathBelow root folders).utf8ByteSize ≤ pathLimit

variable {w : Workspace} {tree' : Entry} {s : Selection} {root path : String}
  {place folders : Location} {name : String}

theorem takesFile_iff : s.takesFile name = true ↔ name.toList.head? ≠ some '.' ∧
    name ∉ s.excludeFiles ∧ String.ofList (Path.nameSuffix name.toList) ∈ s.extensions := by
  simp only [Selection.takesFile, Selection.isHidden, Bool.and_eq_true, Bool.not_eq_true',
    List.contains_eq_mem, decide_eq_true_eq, decide_eq_false_iff_not, beq_eq_false_iff_ne]
  constructor
  · rintro ⟨⟨hexcluded, hhidden⟩, hwanted⟩
    exact ⟨hhidden, hexcluded, hwanted⟩
  · rintro ⟨hhidden, hexcluded, hwanted⟩
    exact ⟨⟨hexcluded, hhidden⟩, hwanted⟩

theorem entersFolder_iff : s.entersFolder name = true ↔
    name.toList.head? ≠ some '.' ∧ name ∉ s.excludeFolders := by
  simp only [Selection.entersFolder, Selection.isHidden, Bool.and_eq_true, Bool.not_eq_true',
    List.contains_eq_mem, decide_eq_false_iff_not, beq_eq_false_iff_ne]
  exact and_comm

theorem countsAsFolder_iff {e : Entry} :
    countsAsFolder w path e = true ↔ LeadsToFolder w path e := by
  cases e with
  | file _ => simp [countsAsFolder, LeadsToFolder]
  | folder _ => simp [countsAsFolder, LeadsToFolder]
  | closed => simp [countsAsFolder, LeadsToFolder]
  | link target =>
    unfold countsAsFolder LeadsToFolder
    cases w.entry path with
    | error f => simp
    | ok e => simp

/-- A file of the root is selected if it is wanted. -/
theorem selected_nil : Selected w s root place [] name ↔
    (∃ e, w.tree.get? (place ++ [name]) = some e ∧ ¬LeadsToFolder w (join root name) e) ∧
      s.takesFile name = true := by
  rw [takesFile_iff]
  constructor
  · rintro ⟨hfile, hvisible, hexcluded, hwanted, -⟩
    exact ⟨hfile, hvisible, hexcluded, hwanted⟩
  · rintro ⟨hfile, hvisible, hexcluded, hwanted⟩
    refine ⟨hfile, hvisible, hexcluded, hwanted, ?_⟩
    intro before folder after h
    simp at h

/-- A file below a folder of the root is selected if the folder is entered and the file is selected
there. -/
theorem selected_cons {d : String} : Selected w s root place (d :: folders) name ↔
    ((∃ es, w.tree.get? (place ++ [d]) = some (.folder es)) ∧ s.entersFolder d = true) ∧
      Selected w s (join root d) (place ++ [d]) folders name := by
  rw [entersFolder_iff]
  have hassoc (p : Location) : place ++ [d] ++ p = place ++ (d :: p) := by
    rw [List.append_assoc, List.singleton_append]
  constructor
  · rintro ⟨hfile, hvisible, hexcluded, hwanted, hway⟩
    refine ⟨hway [] d folders rfl, ⟨?_, hvisible, hexcluded, hwanted, ?_⟩⟩
    · rw [hassoc]
      exact hfile
    · intro before folder after h
      rw [hassoc]
      exact hway (d :: before) folder after (by rw [h, List.cons_append])
  · rintro ⟨hd, hfile, hvisible, hexcluded, hwanted, hway⟩
    rw [hassoc] at hfile
    refine ⟨hfile, hvisible, hexcluded, hwanted, ?_⟩
    intro before folder after h
    cases before with
    | nil =>
      obtain ⟨rfl, -⟩ := List.cons.inj h
      exact hd
    | cons c before =>
      obtain ⟨rfl, hrest⟩ := List.cons.inj h
      have hbelow := hway before folder after hrest
      rw [hassoc] at hbelow
      exact hbelow

theorem listed_iff : Listed w s root place folders name ↔
    Selected w s root place folders name ∧ (pathBelow root folders).utf8ByteSize ≤ pathLimit :=
  ⟨fun h => ⟨h.toSelected, h.isReached⟩, fun h => ⟨h.1, h.2⟩⟩

theorem listed_nil : Listed w s root place [] name ↔
    ((∃ e, w.tree.get? (place ++ [name]) = some e ∧ ¬LeadsToFolder w (join root name) e) ∧
      s.takesFile name = true) ∧ root.utf8ByteSize ≤ pathLimit := by
  rw [listed_iff, selected_nil, pathBelow_nil]

theorem listed_cons {d : String} : Listed w s root place (d :: folders) name ↔
    ((∃ es, w.tree.get? (place ++ [d]) = some (.folder es)) ∧ s.entersFolder d = true) ∧
      Listed w s (join root d) (place ++ [d]) folders name := by
  rw [listed_iff, listed_iff, selected_cons, pathBelow_cons, and_assoc]

/-! ### The run through the folders -/

theorem foldersBelow_eq (es : List (String × Entry)) :
    foldersBelow w s path es =
      (es.filter fun d => d.2.isFolder && s.entersFolder d.1).map fun d =>
        (d.1, filesBelow w s (join path d.1) d.2) := by
  induction es with
  | nil => rw [foldersBelow]; rfl
  | cons d es ih =>
    obtain ⟨name, e⟩ := d
    rw [foldersBelow, ih, List.filter_cons]
    split <;> rfl

theorem skippedIn_eq (es : List (String × Entry)) :
    skippedIn s path es =
      (es.filter fun d => d.2.isDirectory && s.entersFolder d.1).map fun d =>
        (d.1, skippedBelow s (join path d.1) d.2) := by
  induction es with
  | nil => rw [skippedIn]; rfl
  | cons d es ih =>
    obtain ⟨name, e⟩ := d
    rw [skippedIn, ih, List.filter_cons]
    split <;> rfl

theorem mem_byName {α : Type} {items : List (String × α)} {d : String × α} :
    d ∈ byName items ↔ d ∈ items :=
  List.mem_mergeSort

/-- A folder that can be listed has its own files and those of the folders that are entered. -/
theorem mem_filesBelow_folder {es : List (String × Entry)} {p : Location} :
    p ∈ filesBelow w s path (.folder es) ↔ path.utf8ByteSize ≤ pathLimit ∧
      ((∃ name e, p = [name] ∧ (name, e) ∈ es ∧ ¬LeadsToFolder w (join path name) e ∧
        s.takesFile name = true) ∨
      ∃ name ds q, p = name :: q ∧ (name, .folder ds) ∈ es ∧ s.entersFolder name = true ∧
        q ∈ filesBelow w s (join path name) (.folder ds)) := by
  rw [filesBelow]
  split
  · rename_i hlong
    exact ⟨fun h => absurd h List.not_mem_nil, fun h => absurd h.1 (Nat.not_le.mpr hlong)⟩
  rename_i hlimit
  rw [and_iff_right (Nat.not_lt.mp hlimit), List.mem_append, List.mem_map, List.mem_flatMap]
  refine or_congr ?_ ?_
  · constructor
    · rintro ⟨⟨name, e⟩, hd, rfl⟩
      rw [mem_byName, List.mem_filter, Bool.and_eq_true, Bool.not_eq_true', ← Bool.not_eq_true,
        countsAsFolder_iff] at hd
      exact ⟨name, e, rfl, hd⟩
    · rintro ⟨name, e, rfl, hd⟩
      refine ⟨(name, e), ?_, rfl⟩
      rw [mem_byName, List.mem_filter, Bool.and_eq_true, Bool.not_eq_true', ← Bool.not_eq_true,
        countsAsFolder_iff]
      exact hd
  · simp only [mem_byName, foldersBelow_eq, List.mem_map, List.mem_filter, Bool.and_eq_true]
    constructor
    · rintro ⟨_, ⟨⟨name, e⟩, ⟨hmem, hfolder, henters⟩, rfl⟩, q, hq, rfl⟩
      obtain ⟨ds, rfl⟩ := isFolder_iff.mp hfolder
      exact ⟨name, ds, q, rfl, hmem, henters, hq⟩
    · rintro ⟨name, ds, q, rfl, hmem, henters, hq⟩
      exact ⟨_, ⟨(name, .folder ds), ⟨hmem, rfl, henters⟩, rfl⟩, q, hq, rfl⟩

/-- Exactly the listed files are below a folder. -/
theorem mem_filesBelow (hw : w.tree.WellFormed) {e : Entry} (he : w.tree.get? place = some e)
    (hfolder : e.isFolder = true) {p : Location} :
    p ∈ filesBelow w s root e ↔
      ∃ folders name, p = folders ++ [name] ∧ Listed w s root place folders name := by
  -- each folder on the way makes the entry smaller; the tree stays, since links are judged in it
  induction e using Entry.treeInduction generalizing root place p with
  | file _ => cases hfolder
  | link _ => cases hfolder
  | closed => cases hfolder
  | folder es ih =>
    rw [mem_filesBelow_folder]
    constructor
    · rintro ⟨hlimit, ⟨name, e, rfl, hmem, hfile, htakes⟩ | ⟨name, ds, q, rfl, hmem, henters, hq⟩⟩
      · have hget := (hw.get?_append_singleton he).mpr hmem
        exact ⟨[], name, rfl, listed_nil.mpr ⟨⟨⟨e, hget, hfile⟩, htakes⟩, hlimit⟩⟩
      · have hget := (hw.get?_append_singleton he).mpr hmem
        obtain ⟨folders, file, rfl, hlisted⟩ := (ih (name, .folder ds) hmem hget rfl).mp hq
        exact ⟨name :: folders, file, rfl, listed_cons.mpr ⟨⟨⟨ds, hget⟩, henters⟩, hlisted⟩⟩
    · rintro ⟨folders, file, rfl, hlisted⟩
      -- the path of the root is part of that of the last folder
      refine ⟨(utf8ByteSize_le_pathBelow root folders).trans hlisted.isReached, ?_⟩
      cases folders with
      | nil =>
        obtain ⟨⟨⟨e, hget, hfile⟩, htakes⟩, -⟩ := listed_nil.mp hlisted
        have hmem := (hw.get?_append_singleton he).mp hget
        exact Or.inl ⟨file, e, rfl, hmem, hfile, htakes⟩
      | cons name folders =>
        obtain ⟨⟨⟨ds, hget⟩, henters⟩, hbelow⟩ := listed_cons.mp hlisted
        have hmem := (hw.get?_append_singleton he).mp hget
        have hq := (ih (name, .folder ds) hmem hget rfl).mpr ⟨folders, file, rfl, hbelow⟩
        exact Or.inr ⟨name, ds, folders ++ [file], rfl, hmem, henters, hq⟩

/-! ### What is passed over -/

/-- A folder cannot be listed by its path: the path is too long, or the folder is closed. -/
inductive Unlistable (path : String) : Entry → FileFault → Prop
  | longPath {e : Entry} (hfolder : e.isDirectory = true)
      (hsize : pathLimit < path.utf8ByteSize) : Unlistable path e .nameTooLong
  | closed (hsize : path.utf8ByteSize ≤ pathLimit) : Unlistable path .closed .denied

/-- A folder below another one is passed over: it cannot be listed, and the folders on the way to it
can and are entered. -/
structure Skipped (s : Selection) (root : String) (top : Entry) (folders : Location)
    (f : FileFault) : Prop where
  isUnlistable : ∃ e, top.get? folders = some e ∧ Unlistable (pathBelow root folders) e f
  way : ∀ before folder after, folders = before ++ folder :: after →
    (pathBelow root before).utf8ByteSize ≤ pathLimit ∧ s.entersFolder folder = true

theorem skipped_nil {top : Entry} {f : FileFault} :
    Skipped s root top [] f ↔ Unlistable root top f := by
  constructor
  · rintro ⟨⟨e, he, hunlistable⟩, -⟩
    obtain rfl := Option.some.inj he
    exact hunlistable
  · intro h
    refine ⟨⟨top, rfl, h⟩, ?_⟩
    intro before folder after hsplit
    simp at hsplit

theorem skipped_cons {es : List (String × Entry)} {d : String} {f : FileFault} :
    Skipped s root (.folder es) (d :: folders) f ↔ root.utf8ByteSize ≤ pathLimit ∧
      s.entersFolder d = true ∧
        ∃ e, OrderedMap.get? d es = some e ∧ Skipped s (join root d) e folders f := by
  constructor
  · rintro ⟨⟨e, he, hunlistable⟩, hway⟩
    rw [get?_cons, child?_folder] at he
    obtain ⟨child, hchild, hrest⟩ := Option.bind_eq_some_iff.mp he
    obtain ⟨hlimit, henters⟩ := hway [] d folders rfl
    refine ⟨hlimit, henters, child, hchild, ⟨e, hrest, hunlistable⟩, ?_⟩
    intro before folder after hsplit
    exact hway (d :: before) folder after (by rw [hsplit, List.cons_append])
  · rintro ⟨hlimit, henters, child, hchild, ⟨e, he, hunlistable⟩, hway⟩
    refine ⟨⟨e, ?_, hunlistable⟩, ?_⟩
    · rw [get?_cons, child?_folder, hchild]
      exact he
    · intro before folder after hsplit
      cases before with
      | nil =>
        obtain ⟨rfl, -⟩ := List.cons.inj hsplit
        exact ⟨hlimit, henters⟩
      | cons c before =>
        obtain ⟨rfl, hrest⟩ := List.cons.inj hsplit
        exact hway before folder after hrest

/-- A folder that can be listed passes over what is passed over below the folders that are
entered. -/
theorem mem_skippedBelow_folder {es : List (String × Entry)} {p : Location} {f : FileFault}
    (hlimit : path.utf8ByteSize ≤ pathLimit) : (p, f) ∈ skippedBelow s path (.folder es) ↔
      ∃ name e q, p = name :: q ∧ (name, e) ∈ es ∧ e.isDirectory = true ∧
        s.entersFolder name = true ∧ (q, f) ∈ skippedBelow s (join path name) e := by
  rw [skippedBelow, if_neg (Nat.not_lt.mpr hlimit)]
  simp only [List.mem_flatMap, mem_byName, skippedIn_eq, List.mem_map, List.mem_filter,
    Bool.and_eq_true]
  constructor
  · rintro ⟨_, ⟨⟨name, e⟩, ⟨hmem, hfolder, henters⟩, rfl⟩, ⟨q, g⟩, hq, heq⟩
    obtain ⟨rfl, rfl⟩ := Prod.mk.inj heq
    exact ⟨name, e, q, rfl, hmem, hfolder, henters, hq⟩
  · rintro ⟨name, e, q, rfl, hmem, hfolder, henters, hq⟩
    exact ⟨_, ⟨(name, e), ⟨hmem, hfolder, henters⟩, rfl⟩, (q, f), hq, rfl⟩

theorem unlistable_of_long {e : Entry} (hfolder : e.isDirectory = true)
    (hlong : pathLimit < path.utf8ByteSize) {f : FileFault} :
    Unlistable path e f ↔ f = .nameTooLong := by
  constructor
  · rintro (⟨_, _⟩ | hlimit)
    · rfl
    · exact absurd hlong (Nat.not_lt.mpr hlimit)
  · rintro rfl
    exact .longPath hfolder hlong

theorem unlistable_folder {es : List (String × Entry)} {f : FileFault} :
    Unlistable path (.folder es) f ↔ pathLimit < path.utf8ByteSize ∧ f = .nameTooLong := by
  constructor
  · rintro ⟨_, hlong⟩
    exact ⟨hlong, rfl⟩
  · rintro ⟨hlong, rfl⟩
    exact .longPath rfl hlong

theorem not_unlistable_file {content : ByteArray} {f : FileFault} :
    ¬Unlistable path (.file content) f := by
  rintro ⟨hfolder, -⟩
  cases hfolder

/-- Only a folder is passed over, or something below a folder. -/
theorem Skipped.isDirectory {top : Entry} {f : FileFault} (h : Skipped s root top folders f) :
    top.isDirectory = true := by
  obtain ⟨⟨e, he, hunlistable⟩, -⟩ := h
  cases folders with
  | nil =>
    obtain rfl := Option.some.inj he
    cases hunlistable with
    | longPath hfolder _ => exact hfolder
    | closed _ => rfl
  | cons d folders =>
    cases top with
    | folder _ => rfl
    | file _ => cases he
    | link _ => cases he
    | closed => rfl

/-- Where the path of a folder is too long, the folder itself is passed over and nothing else. -/
theorem mem_skippedBelow_of_long {e : Entry} (hfolder : e.isDirectory = true)
    (hlong : pathLimit < root.utf8ByteSize) {f : FileFault} :
    (folders, f) ∈ skippedBelow s root e ↔ Skipped s root e folders f := by
  have hself : skippedBelow s root e = [([], .nameTooLong)] := by
    rcases isDirectory_iff.mp hfolder with rfl | ⟨es, rfl⟩
    · rw [skippedBelow, if_pos hlong]
    · rw [skippedBelow, if_pos hlong]
  rw [hself, List.mem_singleton, Prod.mk.injEq]
  cases folders with
  | nil => rw [skipped_nil, unlistable_of_long hfolder hlong, and_iff_right rfl]
  | cons d folders =>
    exact ⟨fun h => (nomatch h.1), fun h =>
      absurd hlong (Nat.not_lt.mpr (h.way [] d folders rfl).1)⟩

/-- Exactly the folders are passed over that cannot be listed and that are come to. -/
theorem mem_skippedBelow {e : Entry} (he : e.WellFormed) {f : FileFault} :
    (folders, f) ∈ skippedBelow s root e ↔ Skipped s root e folders f := by
  induction e using Entry.treeInduction generalizing root folders with
  | file _ => exact ⟨fun h => absurd h List.not_mem_nil, fun h => (nomatch h.isDirectory)⟩
  | link _ => exact ⟨fun h => absurd h List.not_mem_nil, fun h => (nomatch h.isDirectory)⟩
  | closed =>
    by_cases hlimit : root.utf8ByteSize ≤ pathLimit
    · rw [skippedBelow, if_neg (Nat.not_lt.mpr hlimit), List.mem_singleton, Prod.mk.injEq]
      constructor
      · rintro ⟨rfl, rfl⟩
        exact skipped_nil.mpr (.closed hlimit)
      · rintro ⟨⟨e, he, hunlistable⟩, -⟩
        cases folders with
        | nil =>
          obtain rfl := Option.some.inj he
          cases hunlistable with
          | longPath _ hlong => exact absurd hlong (Nat.not_lt.mpr hlimit)
          | closed _ => exact ⟨rfl, rfl⟩
        | cons d folders => cases he
    · exact mem_skippedBelow_of_long rfl (Nat.not_le.mp hlimit)
  | folder es ih =>
    by_cases hlimit : root.utf8ByteSize ≤ pathLimit
    · rw [mem_skippedBelow_folder hlimit]
      constructor
      · rintro ⟨name, e, q, rfl, hmem, -, henters, hq⟩
        exact skipped_cons.mpr ⟨hlimit, henters, e,
          (OrderedMap.get?_eq_some_iff he.nodup_keys).mpr hmem,
          (ih _ hmem (he.of_mem hmem)).mp hq⟩
      · intro h
        cases folders with
        | nil =>
          cases skipped_nil.mp h with
          | longPath _ hlong => exact absurd hlong (Nat.not_lt.mpr hlimit)
        | cons d folders =>
          obtain ⟨-, henters, e, hget, hbelow⟩ := skipped_cons.mp h
          have hmem := OrderedMap.mem_of_get?_eq_some hget
          exact ⟨d, e, folders, rfl, hmem, hbelow.isDirectory, henters,
            (ih _ hmem (he.of_mem hmem)).mpr hbelow⟩
    · exact mem_skippedBelow_of_long rfl (Nat.not_le.mp hlimit)

/-- A selected file is listed, or one of its folders is passed over. -/
theorem Selected.listed_or_skipped (h : Selected w s root place folders name)
    {es : List (String × Entry)} (hes : w.tree.get? place = some (.folder es)) :
    Listed w s root place folders name ∨ ∃ before, before <+: folders ∧
      Skipped s root (.folder es) before .nameTooLong := by
  induction folders generalizing root place es with
  | nil =>
    by_cases hlimit : root.utf8ByteSize ≤ pathLimit
    · exact .inl ⟨h, hlimit⟩
    · exact .inr ⟨[], List.nil_prefix, skipped_nil.mpr (.longPath rfl (Nat.not_le.mp hlimit))⟩
  | cons d folders ih =>
    obtain ⟨⟨⟨ds, hds⟩, henters⟩, hbelow⟩ := selected_cons.mp h
    by_cases hlimit : root.utf8ByteSize ≤ pathLimit
    · rcases ih hbelow hds with hlisted | ⟨before, hbefore, hskipped⟩
      · exact .inl (listed_cons.mpr ⟨⟨⟨ds, hds⟩, henters⟩, hlisted⟩)
      · -- what is passed over below the folder is passed over below the root
        refine .inr ⟨d :: before, List.cons_prefix_cons.mpr ⟨rfl, hbefore⟩,
          skipped_cons.mpr ⟨hlimit, henters, _, ?_, hskipped⟩⟩
        rw [get?_append, hes, Option.bind_some, get?_cons, child?_folder] at hds
        obtain ⟨child, hchild, hget⟩ := Option.bind_eq_some_iff.mp hds
        rw [hchild, Option.some.inj hget]
    · exact .inr ⟨[], List.nil_prefix, skipped_nil.mpr (.longPath rfl (Nat.not_le.mp hlimit))⟩

/-! ### The order of the listing -/

/-- Items with different names stand in the order of their names. -/
theorem pairwise_byName {α : Type} {items : List (String × α)}
    (h : (items.map Prod.fst).Nodup) : (byName items).Pairwise fun c d => c.1 < d.1 := by
  have hle : (byName items).Pairwise fun c d => decide (c.1 ≤ d.1) = true := by
    apply List.pairwise_mergeSort
    · intro a b c hab hbc
      rw [decide_eq_true_eq] at hab hbc ⊢
      exact String.le_trans hab hbc
    · intro a b
      rw [Bool.or_eq_true, decide_eq_true_eq, decide_eq_true_eq]
      exact String.le_total a.1 b.1
  have hne : (byName items).Pairwise fun c d => c.1 ≠ d.1 := by
    have hperm : ((byName items).map Prod.fst).Perm (items.map Prod.fst) :=
      (List.mergeSort_perm items _).map Prod.fst
    exact List.pairwise_map.mp (hperm.nodup_iff.mpr h)
  refine (hle.and hne).imp ?_
  rintro c d ⟨hcd, hdiff⟩
  by_contra hlt
  exact hdiff (String.le_antisymm (of_decide_eq_true hcd) (String.not_lt.mp hlt))

theorem nil_notMem_filesBelow {e : Entry} : [] ∉ filesBelow w s path e := by
  intro h
  cases e with
  | file _ => cases h
  | link _ => cases h
  | closed => cases h
  | folder es => rcases (mem_filesBelow_folder.mp h).2 with ⟨_, _, ⟨⟩, _⟩ | ⟨_, _, _, ⟨⟩, _⟩

/-- The files below a folder are in the order of the listing. -/
theorem pairwise_filesBelow {e : Entry} (he : e.WellFormed) :
    (filesBelow w s path e).Pairwise Before := by
  induction e using Entry.treeInduction generalizing path with
  | file _ => exact .nil
  | link _ => exact .nil
  | closed => exact .nil
  | folder es ih =>
    rw [filesBelow]
    split
    · exact .nil
    -- the names in a folder are distinct, so files and folders are each in strict order
    have hfiles : (byName (es.filter fun d =>
        !countsAsFolder w (join path d.1) d.2 && s.takesFile d.1)).Pairwise
        fun c d => c.1 < d.1 :=
      pairwise_byName (he.nodup_keys.sublist (List.filter_sublist.map Prod.fst))
    have hfolders : (byName (foldersBelow w s path es)).Pairwise fun c d => c.1 < d.1 := by
      apply pairwise_byName
      rw [foldersBelow_eq, List.map_map]
      exact he.nodup_keys.sublist (List.filter_sublist.map Prod.fst)
    have hbelow (f : String × List Location) (hf : f ∈ byName (foldersBelow w s path es)) :
        f.2.Pairwise Before ∧ ∀ p ∈ f.2, p ≠ [] := by
      rw [mem_byName, foldersBelow_eq, List.mem_map] at hf
      obtain ⟨d, hd, rfl⟩ := hf
      have hmem := List.mem_of_mem_filter hd
      refine ⟨ih d hmem (he.of_mem hmem), ?_⟩
      rintro _ hnil rfl
      exact nil_notMem_filesBelow hnil
    rw [List.pairwise_append, List.pairwise_map, List.pairwise_flatMap]
    refine ⟨hfiles.imp Before.files, ⟨?_, ?_⟩, ?_⟩
    · intro f hf
      exact List.pairwise_map.mpr ((hbelow f hf).1.imp (Before.inside f.1))
    · refine hfolders.imp_of_mem ?_
      intro f g hf hg hlt p hfp q hgq
      obtain ⟨p, hp, rfl⟩ := List.mem_map.mp hfp
      obtain ⟨q, hq, rfl⟩ := List.mem_map.mp hgq
      exact Before.folders hlt ((hbelow f hf).2 p hp) ((hbelow g hg).2 q hq)
    · intro p hp q hfolder
      obtain ⟨d, -, rfl⟩ := List.mem_map.mp hp
      obtain ⟨f, hf, hfq⟩ := List.mem_flatMap.mp hfolder
      obtain ⟨q, hq, rfl⟩ := List.mem_map.mp hfq
      cases q with
      | nil => exact absurd rfl ((hbelow f hf).2 [] hq)
      | cons c rest => exact Before.fileFirst d.1 f.1 c rest

/-- No path is listed twice. -/
theorem nodup_paths_filesBelow (hw : w.tree.WellFormed) {e : Entry}
    (he : w.tree.get? place = some e) (hfolder : e.isFolder = true) :
    ((filesBelow w s root e).map "/".intercalate).Nodup := by
  have hslash (p : Location) (hp : p ∈ filesBelow w s root e) :
      ∀ name ∈ p, '/' ∉ name.toList := by
    obtain ⟨folders, file, rfl, hlisted⟩ := (mem_filesBelow hw he hfolder).mp hp
    obtain ⟨d, hd, -⟩ := hlisted.isFile
    intro name hname
    exact hw.slash_notMem hd name (List.mem_append_right place hname)
  have hne (p : Location) (hp : p ∈ filesBelow w s root e) : p ≠ [] := by
    rintro rfl
    exact nil_notMem_filesBelow hp
  refine List.Nodup.map_on ?_ (pairwise_filesBelow (hw.of_get? he)).nodup
  intro p hp q hq heq
  exact eq_of_intercalate_eq (hne p hp) (hne q hq) (hslash p hp) (hslash q hq) heq

/-- What is passed over is in the order of the names on the way. -/
theorem pairwise_skippedBelow {e : Entry} (he : e.WellFormed) :
    (skippedBelow s path e).Pairwise fun a b => a.1 < b.1 := by
  induction e using Entry.treeInduction generalizing path with
  | file _ => exact .nil
  | link _ => exact .nil
  | closed => exact List.pairwise_singleton _ _
  | folder es ih =>
    rw [skippedBelow]
    split
    · exact List.pairwise_singleton _ _
    have hfolders : (byName (skippedIn s path es)).Pairwise fun c d => c.1 < d.1 := by
      apply pairwise_byName
      rw [skippedIn_eq, List.map_map]
      exact he.nodup_keys.sublist (List.filter_sublist.map Prod.fst)
    rw [List.pairwise_flatMap]
    constructor
    · intro f hf
      rw [mem_byName, skippedIn_eq, List.mem_map] at hf
      obtain ⟨d, hd, rfl⟩ := hf
      have hmem := List.mem_of_mem_filter hd
      rw [List.pairwise_map]
      exact (ih d hmem (he.of_mem hmem)).imp fun h => List.cons_lt_cons_iff.mpr (.inr ⟨rfl, h⟩)
    · refine hfolders.imp ?_
      intro f g hlt p hp q hq
      obtain ⟨p, -, rfl⟩ := List.mem_map.mp hp
      obtain ⟨q, -, rfl⟩ := List.mem_map.mp hq
      exact List.cons_lt_cons_iff.mpr (.inl hlt)

/-- Where the same folders are passed over, they are listed alike. -/
theorem skippedBelow_congr {e e' : Entry} (he : e.WellFormed) (he' : e'.WellFormed)
    (h : ∀ folders f, Skipped s root e folders f ↔ Skipped s root e' folders f) :
    skippedBelow s root e = skippedBelow s root e' := by
  have hirrefl : Std.Irrefl fun a b : Location × FileFault => a.1 < b.1 :=
    ⟨fun a => List.lt_irrefl a.1⟩
  have hantisymm : Std.Antisymm fun a b : Location × FileFault => a.1 < b.1 :=
    ⟨fun _ _ hab hba => absurd hba (List.lt_asymm hab)⟩
  refine List.Pairwise.eq_of_mem_iff (pairwise_skippedBelow he) (pairwise_skippedBelow he') ?_
  rintro ⟨folders, f⟩
  rw [mem_skippedBelow he, mem_skippedBelow he', h]

/-! ### Other orders of the entries -/

section Relisting

variable (h : Relisted w.tree tree') (hw : w.tree.WellFormed)

include h hw

theorem LeadsToFolder.relisted {e e' : Entry} (he : Relisted e e') :
    LeadsToFolder { w with tree := tree' } path e' ↔ LeadsToFolder w path e := by
  rw [← countsAsFolder_iff, countsAsFolder_relisted h hw path he, countsAsFolder_iff]

/-- The same files are listed. -/
theorem Listed.relisted (hlisted : Listed w s root place folders name) :
    Listed { w with tree := tree' } s root place folders name := by
  obtain ⟨⟨⟨e, hget, hfile⟩, hvisible, hexcluded, hwanted, hway⟩, hreached⟩ := hlisted
  refine ⟨⟨?_, hvisible, hexcluded, hwanted, ?_⟩, hreached⟩
  · obtain ⟨e', he', hget'⟩ := h.get?_eq_some hw hget
    exact ⟨e', hget', fun hfolder => hfile ((LeadsToFolder.relisted h hw he').mp hfolder)⟩
  · intro before folder after hsplit
    obtain ⟨⟨es, hes⟩, henters⟩ := hway before folder after hsplit
    obtain ⟨e', he', hget'⟩ := h.get?_eq_some hw hes
    obtain ⟨es', rfl⟩ : ∃ es', e' = .folder es' := by
      rw [← isFolder_iff, he'.isFolder_eq]
      rfl
    exact ⟨⟨es', hget'⟩, henters⟩

/-- The list of the files below a folder is the same. -/
theorem filesBelow_relisted {e e' : Entry} (he : w.tree.get? place = some e)
    (he' : tree'.get? place = some e') (hfolder : e.isFolder = true) (hee' : Relisted e e') :
    filesBelow { w with tree := tree' } s root e' = filesBelow w s root e := by
  have htree' := h.wellFormed hw
  have hfolder' : e'.isFolder = true := by rw [hee'.isFolder_eq, hfolder]
  -- both lists are in the order of the listing, so they are equal if they hold the same locations
  refine List.Pairwise.eq_of_mem_iff (pairwise_filesBelow (htree'.of_get? he'))
    (pairwise_filesBelow (hw.of_get? he)) ?_
  intro p
  rw [mem_filesBelow (w := { w with tree := tree' }) htree' he' hfolder',
    mem_filesBelow hw he hfolder]
  constructor
  · rintro ⟨folders, name, rfl, hlisted⟩
    exact ⟨folders, name, rfl, hlisted.relisted (w := { w with tree := tree' }) h.symm htree'⟩
  · rintro ⟨folders, name, rfl, hlisted⟩
    exact ⟨folders, name, rfl, hlisted.relisted h hw⟩

end Relisting

/-- The same folders are passed over. -/
theorem Skipped.relisted {e e' : Entry} (h : Relisted e e') (he : e.WellFormed) {f : FileFault}
    (hskipped : Skipped s root e folders f) : Skipped s root e' folders f := by
  obtain ⟨⟨d, hd, hunlistable⟩, hway⟩ := hskipped
  obtain ⟨d', hdd', hd'⟩ := h.get?_eq_some he hd
  refine ⟨⟨d', hd', ?_⟩, hway⟩
  cases hdd' with
  | refl => exact hunlistable
  | folder _ =>
    cases hunlistable with
    | longPath _ hsize => exact .longPath rfl hsize

/-- The list of the folders that are passed over is the same. -/
theorem skippedBelow_relisted {e e' : Entry} (h : Relisted e e') (he : e.WellFormed) :
    skippedBelow s root e' = skippedBelow s root e :=
  skippedBelow_congr (h.wellFormed he) he fun _ _ =>
    ⟨fun hskipped => hskipped.relisted h.symm (h.wellFormed he),
      fun hskipped => hskipped.relisted h he⟩

end Workspace

end ScriptHealth
