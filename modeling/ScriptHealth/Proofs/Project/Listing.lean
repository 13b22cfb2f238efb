import ScriptHealth.Project.Files
import ScriptHealth.Proofs.Data.Logged
import ScriptHealth.Proofs.Workspace.Leading
import ScriptHealth.Proofs.Workspace.Listing

/-!
# The files of a project

The listing of a project is that of its root. It does not depend on the order in which the system
lists the entries of folders, and neither does the record of the folders that it passes over. What it
lists is selected by the names on the way, as long as the paths on the way are not too long: a file
in a folder whose path is longer than the system takes is selected, but it is not listed.

## Main results

* `Project.listFiles_of_open`, `Project.listFiles_of_closed` — the listing of an open and of a closed
  root
* `Project.listFiles_relisted` — the listing does not depend on the order of entries
* `listFiles_lists_selected` — what is listed, and in which order
* `listFiles_passes_over_deepTree` — a file that is selected and not listed
-/

namespace ScriptHealth

namespace Project

open Workspace

variable {w : Workspace} {root : String} {es : List (String × Entry)} {s : Selection}

/-- Recording what is passed over always succeeds. -/
theorem exists_noteSkipped (root : String) (skipped : List (Location × FileFault))
    (logs : List Log.Record) : ∃ t, noteSkipped root skipped logs = .ok ((), t) := by
  induction skipped generalizing logs with
  | nil => exact ⟨logs, rfl⟩
  | cons first rest ih => exact ih _

/-- The listing of an open root, and the records that it leaves. -/
theorem listFiles_of_open (h : w.look root = .ok (some (.folder es))) :
    listFiles w root (.ok s) = (do
      noteSkipped root (skippedBelow s root (.folder es))
      Logged.note .debug listingLogger "Enumerated %d files under %s"
        [.number (filesBelow w s root (.folder es)).length, .text root]
      return (filesBelow w s root (.folder es)).map "/".intercalate) := by
  unfold listFiles
  rw [h, list_of_look_folder h]
  rfl

theorem listFiles_of_closed (h : w.look root = .ok (some .closed))
    (selection : Except Fault Selection) :
    listFiles w root selection = throw (unlistable root .denied) := by
  unfold listFiles
  rw [h, list_of_look_closed h]
  rfl

/-- Whatever was logged before, an open root gives the list of its files. -/
theorem exists_listFiles (h : w.look root = .ok (some (.folder es))) (logs : List Log.Record) :
    ∃ t, listFiles w root (.ok s) logs =
      .ok ((filesBelow w s root (.folder es)).map "/".intercalate, t) := by
  obtain ⟨t, ht⟩ := exists_noteSkipped root (skippedBelow s root (.folder es)) logs
  rw [listFiles_of_open h, Logged.ok_bind ht]
  exact ⟨_, rfl⟩

/-- A root that was listed is open, and there is a selection. -/
theorem isOpen_of_listFiles {selection : Except Fault Selection} {paths : List String}
    {logs t : List Log.Record} (h : listFiles w root selection logs = .ok (paths, t)) :
    w.IsOpen root ∧ ∃ s, selection = .ok s := by
  obtain ⟨found, u, hfound, hlisted⟩ := Logged.bind_eq_ok h
  have hlook : w.look root = .ok found := Logged.eq_ok_of_lift hfound
  cases found with
  | none => cases hlisted
  | some e =>
    cases e with
    | file _ => cases hlisted
    | link _ => cases hlisted
    | closed =>
      rw [listFiles_of_closed hlook] at h
      cases h
    | folder es =>
      refine ⟨⟨es, hlook⟩, ?_⟩
      cases selection with
      | ok s => exact ⟨s, rfl⟩
      | error f =>
        rw [list_of_look_folder hlook] at hlisted
        cases hlisted

/-- A path leads to the same entry in both trees, but for the order of entries. -/
theorem exists_look_relisted {tree' e : Entry} (h : w.tree.Relisted tree') (hw : w.tree.WellFormed)
    (hlook : w.look root = .ok (some e)) :
    ∃ place e', w.tree.get? place = some e ∧ tree'.get? place = some e' ∧ e.Relisted e' ∧
      look { w with tree := tree' } root = .ok (some e') := by
  obtain ⟨place, hplace, hget⟩ := look_eq_some_iff.mp hlook
  obtain ⟨e', he', hget'⟩ := h.get?_eq_some hw hget
  exact ⟨place, e', hget, hget', he',
    look_eq_some_iff.mpr ⟨place, (find_relisted h hw true root).trans hplace, hget'⟩⟩

/-- The listing does not depend on the order of the entries. -/
theorem listFiles_relisted {tree' : Entry} (h : w.tree.Relisted tree') (hw : w.tree.WellFormed)
    (hroot : w.isFolder root = .ok true) :
    listFiles { w with tree := tree' } root (.ok s) = listFiles w root (.ok s) := by
  rcases isFolder_eq_ok_true_iff.mp hroot with hclosed | ⟨es, hopen⟩
  · obtain ⟨_, _, -, -, he', hclosed'⟩ := exists_look_relisted h hw hclosed
    cases he' with
    | refl => rw [listFiles_of_closed hclosed, listFiles_of_closed hclosed']
  · obtain ⟨place, _, hget, hget', he', hopen'⟩ := exists_look_relisted h hw hopen
    obtain ⟨es', rfl⟩ := Entry.isFolder_iff.mp (he'.isFolder_eq.trans rfl)
    rw [listFiles_of_open hopen, listFiles_of_open hopen',
      filesBelow_relisted h hw hget hget' rfl he', skippedBelow_relisted he' (hw.of_get? hget)]

end Project

/-- **The files of a project.** A root that is a folder is listed unless it is closed, which is
reported. The listing holds every path once. It holds exactly the files that are selected by their
names and by the names of their folders, if the path of the last of these folders is not too long,
in each folder first its files by name and then its folders by name. Listing is the same however the
entries of the folders are listed. -/
theorem listFiles_lists_selected (w : Workspace) (hw : w.tree.WellFormed) (root : String)
    (hroot : w.isFolder root = .ok true) (s : Selection) :
    (w.look root = .ok (some .closed) ∧
        (Project.listFiles w root (.ok s)).result = .error (Project.unlistable root .denied) ∨
      w.IsOpen root ∧ ∃ (place : Location) (locations : List Location),
        w.find true root = .ok place ∧
        (Project.listFiles w root (.ok s)).result.map Prod.fst =
          .ok (locations.map "/".intercalate) ∧
        (locations.map "/".intercalate).Nodup ∧
        (∀ p, p ∈ locations ↔ ∃ folders name, p = folders ++ [name] ∧
          Workspace.Selected w s root place folders name ∧
          (Workspace.pathBelow root folders).utf8ByteSize ≤ Workspace.pathLimit) ∧
        locations.Pairwise Location.Before) ∧
    ∀ tree', w.tree.Relisted tree' →
      Project.listFiles { w with tree := tree' } root (.ok s) =
        Project.listFiles w root (.ok s) := by
  refine ⟨?_, fun tree' h => Project.listFiles_relisted h hw hroot⟩
  rcases Workspace.isFolder_eq_ok_true_iff.mp hroot with hclosed | ⟨es, hopen⟩
  · refine .inl ⟨hclosed, ?_⟩
    rw [Project.listFiles_of_closed hclosed]
    rfl
  · obtain ⟨place, hfind, hget⟩ := Workspace.look_eq_some_iff.mp hopen
    refine .inr ⟨⟨es, hopen⟩, place, Workspace.filesBelow w s root (.folder es), hfind,
      ?_, ?_, ?_, ?_⟩
    · obtain ⟨t, ht⟩ := Project.exists_listFiles (s := s) hopen []
      exact congrArg (Except.map Prod.fst) ht
    · exact Workspace.nodup_paths_filesBelow hw hget rfl
    · intro p
      rw [Workspace.mem_filesBelow hw hget rfl]
      simp only [Workspace.listed_iff]
    · exact Workspace.pairwise_filesBelow (hw.of_get? hget)

/-! ### A project with links -/

/-- The files of a folder. -/
def sampleFiles : List (String × Entry) :=
  [("b.ts", .file .empty), ("a.ts", .file .empty), (".env.ts", .file .empty)]

/-- A project with a link to its folder of sources, a link that leads nowhere, installed packages,
a hidden folder and a closed one. -/
def sampleProject (sources : List (String × Entry)) : List (String × Entry) :=
  [("src", .folder sources),
   ("lib.ts", .link "src"),
   ("lost.ts", .link "nowhere"),
   ("node_modules", .folder [("dep.ts", .file .empty)]),
   (".git", .folder [("hook.ts", .file .empty)]),
   ("private", .closed)]

/-- The file tree of the project. -/
def sampleTree : Entry := .folder (sampleProject sampleFiles)

/-- The same tree, with its folders listed backwards. -/
def sampleTreeBackwards : Entry := .folder (sampleProject sampleFiles.reverse).reverse

/-- The files with the extension `.ts` outside of installed packages. -/
def sampleSelection : Selection := ⟨[".ts"], ["node_modules"], []⟩

theorem wellFormed_sampleTree : sampleTree.WellFormed := by
  have hflat {es : List (String × Entry)} (hnodup : (OrderedMap.keys es).Nodup)
      (hslash : ∀ name ∈ OrderedMap.keys es, '/' ∉ name.toList)
      (hflat : ∀ d ∈ es, d.2.isFolder = false) : (Entry.folder es).WellFormed :=
    Entry.wellFormed_folder hnodup hslash fun d hd => Entry.wellFormed_of_not_folder (hflat d hd)
  unfold sampleTree
  apply Entry.wellFormed_folder
  · decide
  · decide
  · intro d hd
    simp only [sampleProject, List.mem_cons, List.not_mem_nil, or_false] at hd
    rcases hd with rfl | rfl | rfl | rfl | rfl | rfl
    · exact hflat (by decide) (by decide) (by decide)
    · exact Entry.wellFormed_of_not_folder rfl
    · exact Entry.wellFormed_of_not_folder rfl
    · exact hflat (by decide) (by decide) (by decide)
    · exact hflat (by decide) (by decide) (by decide)
    · exact Entry.wellFormed_of_not_folder rfl

/-- One link leads to a folder, the other one nowhere. -/
theorem entry_sampleTree :
    Workspace.entry { tree := sampleTree } "/lib.ts" = .ok (.folder sampleFiles) ∧
      Workspace.entry { tree := sampleTree } "/lost.ts" = .error .missing := by
  have husable : ∀ path ∈ ["/lib.ts", "/lost.ts"],
      Workspace.IsUsable { tree := sampleTree } path := by
    change ∀ path ∈ ["/lib.ts", "/lost.ts"], Workspace.IsUsable {} path
    decide +kernel
  have hways : Workspace.way { tree := sampleTree } "/lib.ts" = ["lib.ts"] ∧
      Workspace.way { tree := sampleTree } "/lost.ts" = ["lost.ts"] := by
    change Workspace.way {} "/lib.ts" = ["lib.ts"] ∧ Workspace.way {} "/lost.ts" = ["lost.ts"]
    decide +kernel
  have htargets : Workspace.namesOf "src" = ["src"] ∧
      Workspace.namesOf "nowhere" = ["nowhere"] := by
    decide +kernel
  have hlib : Workspace.Leads sampleTree true Workspace.linkLimit [] ["lib.ts"] ["src"] := by
    refine .link (by decide) rfl (.inr rfl) ?_
    rw [htargets.1]
    exact .enter (by decide) rfl (.stay _ _)
  have hlost : Workspace.Leads sampleTree true Workspace.linkLimit [] ["lost.ts"]
      ["nowhere"] := by
    refine .link (by decide) rfl (.inr rfl) ?_
    rw [htargets.2]
    exact .stop_of_none (by decide) rfl
  constructor
  · rw [Workspace.entry_of_find (Workspace.find_of_way_eq (husable _ (by simp)) hways.1 hlib)]
    rfl
  · rw [Workspace.entry_of_find (Workspace.find_of_way_eq (husable _ (by simp)) hways.2 hlost)]
    rfl

/-- The link to a folder is not listed, the link that leads nowhere is, and the order of the entries
does not matter. -/
theorem listFiles_lists_selected_sampleTree :
    ∃ locations : List Location,
      (Project.listFiles { tree := sampleTree } "/" (.ok sampleSelection)).result.map Prod.fst =
          .ok (locations.map "/".intercalate) ∧
        ["lost.ts"] ∈ locations ∧ ["src", "a.ts"] ∈ locations ∧ ["lib.ts"] ∉ locations ∧
        Project.listFiles { tree := sampleTreeBackwards } "/" (.ok sampleSelection) =
          Project.listFiles { tree := sampleTree } "/" (.ok sampleSelection) := by
  have hopen : Workspace.look { tree := sampleTree } "/" = .ok (some sampleTree) :=
    Workspace.look_top sampleTree
  obtain ⟨hcases, hrelisted⟩ := listFiles_lists_selected { tree := sampleTree }
    wellFormed_sampleTree "/" (Workspace.IsOpen.isFolder ⟨_, hopen⟩) sampleSelection
  rcases hcases with ⟨hclosed, -⟩ | ⟨-, place, locations, hplace, hresult, -, hmem, -⟩
  · cases hopen.symm.trans hclosed
  obtain rfl : [] = place := Except.ok.inj ((Workspace.find_top sampleTree).symm.trans hplace)
  have hjoin : Workspace.join "/" "lib.ts" = "/lib.ts" ∧
      Workspace.join "/" "lost.ts" = "/lost.ts" := by
    decide +kernel
  refine ⟨locations, hresult, ?_, ?_, ?_, hrelisted _ ?_⟩
  · refine (hmem _).mpr ⟨[], "lost.ts", rfl,
      Workspace.selected_nil.mpr ⟨⟨_, rfl, ?_⟩, by decide⟩, by decide⟩
    rw [hjoin.2]
    rintro ⟨e, he, -⟩
    cases entry_sampleTree.2.symm.trans he
  · have hfile : Workspace.Selected { tree := sampleTree } sampleSelection
        (Workspace.join "/" "src") ["src"] [] "a.ts" :=
      Workspace.selected_nil.mpr ⟨⟨_, rfl, id⟩, by decide⟩
    exact (hmem _).mpr ⟨["src"], "a.ts", rfl,
      Workspace.selected_cons.mpr ⟨⟨⟨_, rfl⟩, by decide⟩, hfile⟩, by decide +kernel⟩
  · intro h
    obtain ⟨folders, name, hsplit, hselected, -⟩ := (hmem ([] ++ ["lib.ts"])).mp h
    obtain ⟨rfl, hname⟩ := List.append_inj' hsplit rfl
    obtain rfl := List.singleton_inj.mp hname
    obtain ⟨e, he, hfile⟩ := hselected.isFile
    cases he
    refine hfile ⟨.folder sampleFiles, ?_, rfl⟩
    rw [List.nil_append, Workspace.pathBelow_cons, Workspace.pathBelow_nil, hjoin.1]
    exact entry_sampleTree.1
  · have hinside : Entry.RelistedAll sampleFiles sampleFiles.reverse :=
      .of_perm (List.reverse_perm _).symm
    exact .folder ((Entry.RelistedAll.inside "src" _ hinside).trans
      (.of_perm (List.reverse_perm _).symm))

/-! ### A file below long names -/

/-- A name of a given length. -/
def repeatedName (length : Nat) : String := String.ofList (List.replicate length 'a')

/-- A name that is as long as names may be. -/
def longName : String := repeatedName Workspace.nameLimit

/-- Folders with this name in each other, and an entry in the last of them. -/
def nested (e : Entry) : Nat → Entry
  | 0 => e
  | n + 1 => .folder [(longName, nested e n)]

/-- A file below seventeen folders with a long name. -/
def deepTree : Entry := nested (.folder [("x.ts", .file .empty)]) 17

theorem utf8ByteSize_repeatedName (n : Nat) : (repeatedName n).utf8ByteSize = n := by
  induction n with
  | zero => rfl
  | succ n ih =>
    have hone : (String.singleton 'a').utf8ByteSize = 1 := by decide
    have hnext : repeatedName (n + 1) = String.singleton 'a' ++ repeatedName n := by
      rw [repeatedName, List.replicate_succ, String.ofList_cons, repeatedName]
    rw [hnext, String.utf8ByteSize_append, ih, hone, Nat.add_comm]

theorem slash_notMem_repeatedName (n : Nat) : '/' ∉ (repeatedName n).toList := by
  rw [repeatedName, String.toList_ofList]
  exact fun h => absurd (List.eq_of_mem_replicate h) (by decide)

/-- A folder with the long name is entered: its name is longer than that of the excluded folder. -/
theorem entersFolder_longName : sampleSelection.entersFolder longName = true := by
  refine Workspace.entersFolder_iff.mpr ⟨?_, ?_⟩
  · rw [longName, repeatedName, String.toList_ofList, Workspace.nameLimit, List.replicate_succ]
    exact nofun
  · rw [sampleSelection, List.mem_singleton]
    intro h
    have hsize := congrArg String.utf8ByteSize h
    rw [longName, utf8ByteSize_repeatedName] at hsize
    exact absurd hsize (by decide)

theorem isFolder_nested {e : Entry} (he : e.isFolder = true) (n : Nat) :
    (nested e n).isFolder = true := by
  cases n with
  | zero => exact he
  | succ n => rfl

theorem wellFormed_nested {e : Entry} (he : e.WellFormed) (n : Nat) : (nested e n).WellFormed := by
  induction n with
  | zero => exact he
  | succ n ih =>
    refine Entry.wellFormed_folder (List.nodup_singleton _) ?_ ?_
    · intro name hname
      rw [List.mem_singleton.mp hname]
      exact slash_notMem_repeatedName _
    · intro d hd
      rw [List.mem_singleton.mp hd]
      exact ih

/-- A file at the end of the folders is selected if its name is. -/
theorem selected_nested {tree e : Entry} {s : Selection} {root file : String} {place : Location}
    {n : Nat} (hplace : tree.get? place = some (nested e n))
    (henters : s.entersFolder longName = true) (htakes : s.takesFile file = true)
    {content : ByteArray} (hfile : e.get? [file] = some (.file content)) (he : e.isFolder = true) :
    Workspace.Selected { tree } s root place (List.replicate n longName) file := by
  induction n generalizing root place with
  | zero =>
    refine Workspace.selected_nil.mpr ⟨⟨.file content, ?_, id⟩, htakes⟩
    rw [Entry.get?_append, hplace]
    exact hfile
  | succ n ih =>
    have hinner : tree.get? (place ++ [longName]) = some (nested e n) := by
      rw [Entry.get?_append, hplace, Option.bind_some, nested, Entry.get?_cons,
        Entry.child?_folder, OrderedMap.get?_cons, if_pos rfl]
      rfl
    obtain ⟨es, hes⟩ := Entry.isFolder_iff.mp (isFolder_nested he n)
    rw [List.replicate_succ]
    exact Workspace.selected_cons.mpr
      ⟨⟨⟨es, hinner.trans (congrArg some hes)⟩, henters⟩, ih hinner⟩

/-- Nothing is listed where the path of the last folder is too long. -/
theorem filesBelow_nested {w : Workspace} {s : Selection} {path : String} {n : Nat}
    {es : List (String × Entry)}
    (h : Workspace.pathLimit < path.utf8ByteSize + Workspace.nameLimit * n) :
    Workspace.filesBelow w s path (nested (.folder es) n) = [] := by
  induction n generalizing path with
  | zero => exact if_pos h
  | succ n ih =>
    have hjoin := Workspace.utf8ByteSize_add_le_join path longName
    rw [longName, utf8ByteSize_repeatedName, ← longName] at hjoin
    rw [Nat.mul_succ] at h
    have hinner : Workspace.filesBelow w s (Workspace.join path longName)
        (nested (.folder es) n) = [] := ih (by omega)
    obtain ⟨ds, hds⟩ := Entry.isFolder_iff.mp (isFolder_nested (e := .folder es) rfl n)
    refine List.eq_nil_iff_forall_not_mem.mpr fun p hp => ?_
    rw [nested] at hp
    rcases (Workspace.mem_filesBelow_folder.mp hp).2 with
      ⟨name, e, -, hmem, hfile, -⟩ | ⟨name, cs, q, -, hmem, -, hq⟩
    · -- the only entry is a folder
      obtain ⟨rfl, rfl⟩ := Prod.mk.inj (List.mem_singleton.mp hmem)
      rw [hds] at hfile
      exact hfile trivial
    · obtain ⟨rfl, hcs⟩ := Prod.mk.inj (List.mem_singleton.mp hmem)
      rw [hcs, hinner] at hq
      exact absurd hq List.not_mem_nil

/-- A file that is selected by its name and those of all its folders is not listed. -/
theorem listFiles_passes_over_deepTree :
    deepTree.WellFormed ∧ Workspace.isFolder { tree := deepTree } "/" = .ok true ∧
      Workspace.Selected { tree := deepTree } sampleSelection "/" [] (List.replicate 17 longName)
        "x.ts" ∧
      (Project.listFiles { tree := deepTree } "/" (.ok sampleSelection)).result.map Prod.fst =
        .ok [] := by
  have hflat : (Entry.folder [("x.ts", .file .empty)]).WellFormed :=
    Entry.wellFormed_folder (by decide) (by decide)
      (List.forall_mem_singleton.mpr (Entry.wellFormed_of_not_folder rfl))
  have hopen : Workspace.look { tree := deepTree } "/" = .ok (some deepTree) :=
    Workspace.look_top deepTree
  refine ⟨wellFormed_nested hflat 17, Workspace.IsOpen.isFolder ⟨_, hopen⟩,
    selected_nested (Entry.get?_nil _) entersFolder_longName (by decide) rfl rfl, ?_⟩
  obtain ⟨t, ht⟩ := Project.exists_listFiles (s := sampleSelection) hopen []
  have hnone : Workspace.filesBelow { tree := deepTree } sampleSelection "/" deepTree = [] :=
    filesBelow_nested (by decide)
  refine (congrArg (Except.map Prod.fst) ht).trans (congrArg Except.ok ?_)
  exact congrArg (List.map "/".intercalate) hnone

end ScriptHealth
