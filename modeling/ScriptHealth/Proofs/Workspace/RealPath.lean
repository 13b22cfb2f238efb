import ScriptHealth.Proofs.Source.Path
import ScriptHealth.Proofs.Workspace.Leading

/-!
# Real paths of folders

The real path of a folder is the path of the location that its given path leads to. It leads to the
same location, unless it is too long as a whole: links may make a short path of a long one.

In a tree whose names do not hold the character NUL, none of the paths that are read off the tree
holds it.

## Main definitions

* `Entry.EveryName` — every name in a tree has a property
* `Entry.IsNulFree` — no name in a tree holds NUL

## Main results

* `Workspace.Leads.replaceLinks` — replacing links leads to where following them leads
* `Workspace.realPath_of_find` — the real path of what is found
* `Workspace.find_realPath` — the real path leads there as well, unless it is too long
* `Workspace.find_ne_nul` — paths that start at the top and hold no NUL do not fail because of it
-/

namespace ScriptHealth

namespace Path

open Text

/-- Leaving out segments that say nothing adds at most the characters that divide and name them. -/
theorem mem_plain {p : List Char} {c : Char} (hc : c ∈ plain p) : c ∈ p ∨ c = '/' ∨ c = '.' := by
  rw [plain] at hc
  split at hc
  · exact .inr (.inr (List.mem_singleton.mp hc))
  · rcases List.mem_append.mp hc with hslash | hnames
    · exact .inr (.inl (List.eq_of_mem_replicate hslash))
    · rcases mem_joinWith hnames with hslash | ⟨s, hs, hcs⟩
      · exact .inr (.inl (List.mem_singleton.mp hslash))
      · exact .inl (mem_of_mem_splitAt (List.mem_of_mem_filter hs) hcs)

end Path

namespace Entry

/-- Every name on the way to an entry of the tree has a property. -/
def EveryName (P : String → Prop) (tree : Entry) : Prop :=
  ∀ place e, tree.get? place = some e → ∀ name ∈ place, P name

theorem everyName_folder {P : String → Prop} {es : List (String × Entry)}
    (hnames : ∀ name ∈ OrderedMap.keys es, P name) (hinner : ∀ d ∈ es, d.2.EveryName P) :
    (Entry.folder es).EveryName P := by
  intro place e he
  cases place with
  | nil => exact fun _ hname => absurd hname List.not_mem_nil
  | cons first rest =>
    rw [get?_cons, child?_folder] at he
    obtain ⟨d, hd, hrest⟩ := Option.bind_eq_some_iff.mp he
    have hmem := OrderedMap.mem_of_get?_eq_some hd
    rw [List.forall_mem_cons]
    exact ⟨hnames first (List.mem_map.mpr ⟨_, hmem, rfl⟩), hinner _ hmem rest e hrest⟩

theorem everyName_file (P : String → Prop) (content : ByteArray) :
    (Entry.file content).EveryName P := by
  intro place e he
  cases place with
  | nil => exact fun _ hname => absurd hname List.not_mem_nil
  | cons first rest => cases he

/-- No name on the way to an entry of the tree holds NUL. -/
def IsNulFree (tree : Entry) : Prop :=
  ∀ place e, tree.get? place = some e → ∀ name ∈ place, '\x00' ∉ name.toList

theorem isNulFree_folder {es : List (String × Entry)}
    (hnames : ∀ name ∈ OrderedMap.keys es, '\x00' ∉ name.toList)
    (hinner : ∀ d ∈ es, d.2.IsNulFree) : (Entry.folder es).IsNulFree :=
  everyName_folder hnames hinner

theorem isNulFree_file (content : ByteArray) : (Entry.file content).IsNulFree :=
  everyName_file _ content

end Entry

namespace Workspace

variable {w : Workspace} {path dir : String} {tree : Entry} {follow : Bool} {links : Nat}
  {here p : Location} {names : List String}

/-! ### Reading -/

/-- Reading fails because of NUL only if following the path does. -/
theorem find_of_read_nul (h : w.read path = .error .nul) : w.find true path = .error .nul := by
  cases hfind : w.find true path with
  | error f =>
    rw [Workspace.read, entry, hfind] at h
    cases h
    rfl
  | ok p =>
    rw [Workspace.read, entry_of_find hfind] at h
    cases hget : w.tree.get? p with
    | none =>
      rw [hget] at h
      cases h
    | some e =>
      rw [hget] at h
      cases e <;> cases h

/-! ### Real paths -/

/-- Replacing links leads to where following them leads. -/
theorem Leads.replaceLinks (h : Leads tree true links here names p) :
    replaceLinks tree links here names = some p := by
  induction h with
  | stay links here => rw [Workspace.replaceLinks]
  | blank hname next ih => rw [Workspace.replaceLinks, if_pos hname, ih]
  | up next ih => rw [Workspace.replaceLinks, if_neg (by decide), if_pos rfl, ih]
  | @stop links here name hname hfolder hlink =>
    -- names that are too long do not matter here, and neither does what is not there
    rw [Workspace.replaceLinks, if_neg hname.1, if_neg hname.2.1]
    split
    · rename_i target hget
      exact absurd hget (hlink rfl target)
    · rw [Workspace.replaceLinks]
  | enter hname hget next ih =>
    rw [Workspace.replaceLinks, if_neg hname.1, if_neg hname.2.1, hget]
    exact ih
  | link hname hget hfollow next ih =>
    rw [Workspace.replaceLinks, if_neg hname.1, if_neg hname.2.1, hget]
    exact ih

theorem realPath_of_find (h : w.find true path = .ok p) : w.realPath path = .ok (pathOf p) := by
  rw [realPath, (find_eq_ok_iff.mp h).2.replaceLinks]

/-- A name that is looked up, and that is one segment of a path. -/
def IsSegment (name : String) : Prop := IsLookedUp name ∧ '/' ∉ name.toList

theorem IsSegment.isNamed {name : String} (h : IsSegment name) : Path.IsNamed name.toList := by
  obtain ⟨⟨hblank, -, -⟩, hslash⟩ := h
  refine ⟨fun hempty => hblank (.inl ?_), fun hdot => hblank (.inr ?_), hslash⟩
  · rw [← String.ofList_toList (s := name), hempty, String.ofList_nil]
  · rw [← String.ofList_toList (s := name), hdot]
    rfl

theorem slash_notMem_of_mem_namesOf {name : String} (h : name ∈ namesOf path) :
    '/' ∉ name.toList := by
  obtain ⟨s, hs, rfl⟩ := List.mem_map.mp h
  rw [String.toList_ofList]
  exact Text.sep_notMem_of_mem_splitAt hs

/-- A walk along segments goes through locations whose names are segments. -/
theorem Leads.isSegment (h : Leads tree follow links here names p)
    (hhere : ∀ name ∈ here, IsSegment name) (hnames : ∀ name ∈ names, '/' ∉ name.toList) :
    ∀ name ∈ p, IsSegment name := by
  have hsnoc {here : Location} {name : String} (hhere : ∀ n ∈ here, IsSegment n)
      (hname : IsSegment name) : ∀ n ∈ here ++ [name], IsSegment n := by
    intro n hn
    rcases List.mem_append.mp hn with hn | hn
    · exact hhere n hn
    · rwa [List.mem_singleton.mp hn]
  induction h with
  | stay links here => exact hhere
  | blank hname next ih => exact ih hhere (List.forall_mem_cons.mp hnames).2
  | @up links here p rest next ih =>
    exact ih (fun n hn => hhere n (List.dropLast_subset here hn)) (List.forall_mem_cons.mp hnames).2
  | stop hname hfolder hlink => exact hsnoc hhere ⟨hname, (List.forall_mem_cons.mp hnames).1⟩
  | enter hname hget next ih =>
    obtain ⟨hslash, hrest⟩ := List.forall_mem_cons.mp hnames
    exact ih (hsnoc hhere ⟨hname, hslash⟩) hrest
  | @link links here p name rest target hname hget hfollow next ih =>
    refine ih ?_ fun n hn => ?_
    · unfold linkStart
      split
      · exact fun _ hn => absurd hn List.not_mem_nil
      · exact hhere
    · rcases List.mem_append.mp hn with hn | hn
      · exact slash_notMem_of_mem_namesOf hn
      · exact hnames n (List.mem_cons_of_mem name hn)

theorem isSegment_of_find (h : w.find follow path = .ok p) : ∀ name ∈ p, IsSegment name :=
  (find_eq_ok_iff.mp h).2.isSegment (fun _ hn => absurd hn List.not_mem_nil)
    fun _ hn => slash_notMem_of_mem_namesOf hn

theorem isAbsolute_pathOf (p : Location) : IsAbsolute (pathOf p) := by
  rw [IsAbsolute, pathOf, String.toList_append]
  rfl

/-- The way of a location that names lead to is the location. -/
theorem way_pathOf_of_find (h : w.find follow path = .ok p) : w.way (pathOf p) = p :=
  way_pathOf w fun name hname => (isSegment_of_find h name hname).isNamed

/-! ### Paths without NUL -/

theorem nul_notMem_intercalate (h : ∀ name ∈ p, '\x00' ∉ name.toList) :
    '\x00' ∉ ("/".intercalate p).toList := by
  intro hc
  have hsep : "/".toList = ['/'] := rfl
  rw [String.toList_intercalate, hsep, ← Text.joinWith_eq_intercalate] at hc
  rcases Text.mem_joinWith hc with hslash | ⟨s, hs, hcs⟩
  · exact absurd (List.mem_singleton.mp hslash) (by decide)
  · obtain ⟨name, hname, rfl⟩ := List.mem_map.mp hs
    exact h name hname hcs

theorem nul_notMem_pathOf (h : ∀ name ∈ p, '\x00' ∉ name.toList) :
    '\x00' ∉ (pathOf p).toList := by
  rw [pathOf, String.toList_append, List.mem_append, not_or]
  exact ⟨by decide, nul_notMem_intercalate h⟩

/-- A path that starts at the top takes no characters from the current folder. -/
theorem nul_notMem_absolute (habsolute : IsAbsolute path) (h : '\x00' ∉ path.toList) :
    '\x00' ∉ (w.absolute path).toList := by
  unfold IsAbsolute at habsolute
  rw [absolute, under, String.toList_ofList, Path.under, Path.join, if_pos habsolute]
  intro hc
  rcases Path.mem_plain hc with hpath | hslash | hdot
  · exact h hpath
  · exact absurd hslash (by decide)
  · exact absurd hdot (by decide)

theorem nul_notMem_under (hdir : '\x00' ∉ dir.toList) (hpath : '\x00' ∉ path.toList) :
    '\x00' ∉ (under dir path).toList := by
  rw [under, String.toList_ofList, Path.under]
  intro hc
  rcases Path.mem_plain hc with hjoin | hslash | hdot
  · rcases Path.mem_join hjoin with h | h | h
    · exact hdir h
    · exact hpath h
    · exact absurd h (by decide)
  · exact absurd hslash (by decide)
  · exact absurd hdot (by decide)

theorem isAbsolute_under_of_isAbsolute (hdir : IsAbsolute dir) (path : String) :
    IsAbsolute (under dir path) := by
  by_cases hpath : IsAbsolute path
  · unfold IsAbsolute at hpath ⊢
    rw [under, Path.under, String.toList_ofList, Path.head?_plain, Path.join, if_pos hpath, hpath]
  · exact (isAbsolute_under hpath).mpr hdir

/-- Following names does not look at single characters. -/
theorem followNames_ne_nul : followNames tree follow links here names ≠ .error .nul := by
  -- the faults that arise here are others, and every step goes on with the rest
  fun_induction followNames tree follow links here names <;> simp_all

/-- Below a real path nothing fails because of NUL. -/
theorem find_ne_nul (hpath : IsAbsolute path) (h : '\x00' ∉ path.toList) :
    w.find follow path ≠ .error .nul := by
  rw [find_eq, if_neg (by simpa using nul_notMem_absolute hpath h)]
  split
  · exact nofun
  · split
    · exact nofun
    · exact followNames_ne_nul

/-- The names of the location of a folder lead there. -/
theorem leads_of_isDirectory {tree : Entry} {e : Entry} (hget : tree.get? p = some e)
    (hfolder : e.isDirectory = true) (hnames : ∀ name ∈ p, IsLookedUp name) :
    Leads tree true linkLimit [] p p := by
  rcases List.eq_nil_or_concat' p with rfl | ⟨before, name, rfl⟩
  · exact .stay _ _
  · -- the folders before it are entered, and it is entered as well or the last one on the way
    obtain ⟨ds, -, hds, -⟩ := Entry.exists_folder_of_get? hget
    have hname := hnames name (by simp)
    refine Leads.through ?_ ⟨ds, hds⟩ fun n hn => hnames n (List.mem_append_left _ hn)
    rw [List.nil_append]
    rcases Entry.isDirectory_iff.mp hfolder with rfl | ⟨es, rfl⟩
    · exact .stop hname (by simp [hget]) (by simp [hget])
    · exact .enter hname hget (.stay _ _)

/-- The real path of a folder leads to it, unless it is too long. -/
theorem find_realPath (hfind : w.find true path = .ok p) {e : Entry}
    (hget : w.tree.get? p = some e) (hfolder : e.isDirectory = true) (hnul : w.tree.IsNulFree) :
    w.find true (pathOf p) =
      if pathLimit < (pathOf p).utf8ByteSize then .error .nameTooLong else .ok p := by
  have hway := way_pathOf_of_find hfind
  have habsolute := nul_notMem_absolute (w := w) (isAbsolute_pathOf p)
    (nul_notMem_pathOf (hnul p _ hget))
  have hempty : pathOf p ≠ "" := by
    intro h
    have hslash := isAbsolute_pathOf p
    rw [h] at hslash
    cases hslash
  have hleads := leads_of_isDirectory hget hfolder fun name hname =>
    (isSegment_of_find hfind name hname).1
  rw [find_eq, if_neg (by simpa using habsolute), if_neg hempty, hway, followNames_of_leads hleads]

end Workspace

end ScriptHealth
