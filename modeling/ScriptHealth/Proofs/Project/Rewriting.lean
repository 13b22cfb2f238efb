import ScriptHealth.Project.Output
import ScriptHealth.Proofs.Workspace.Growth

/-!
# Writing a report

A report is written below the project that it is about. This touches two files only, the report and
the list of ignored files, and it makes folders on the way to the report. All other files stay as
they are, and paths below the root of the project lead to where they led before as long as they do
not pass through a folder that is new.

## Main definitions

* `Project.IsOutput` — the files that writing a report touches
* `Project.Rewritten` — a tree before and after a report was written

## Main results

* `Project.ran_writeReport` — writing a report is a run on the way to it
* `Project.get?_of_writeReport` — a report that was written is there
* `Project.Rewritten.file_iff` — all other files are the same
-/

namespace ScriptHealth

namespace Project

open Workspace Entry Location Outcome

variable {w v : Workspace} {root out place : Location}

/-! ### Writing a report -/

/-- The files that writing a report touches. -/
def IsOutput (root out place : Location) : Prop :=
  place = root ++ (out ++ [reportFileName]) ∨ place = root ++ [ignoreFileName]

theorem isName_append_singleton {name : String} (hplace : ∀ n ∈ place, IsName n)
    (hname : IsName name) : ∀ n ∈ place ++ [name], IsName n := by
  intro n hn
  rcases List.mem_append.mp hn with hn | hn
  · exact hplace n hn
  · rw [List.mem_singleton.mp hn]
    exact hname

theorem isName_of_isOutput (hnames : ∀ name ∈ root ++ out, IsName name)
    (h : IsOutput root out place) : ∀ name ∈ place, IsName name := by
  rcases h with rfl | rfl
  · rw [← List.append_assoc]
    exact isName_append_singleton hnames (by decide)
  · exact isName_append_singleton (fun n hn => hnames n (List.mem_append_left out hn)) (by decide)

theorem ran_ensureIgnored {path entry : String} {changed : Bool}
    (hw : w.tree.IsPlain) (hroot : w.way path = root) (hnames : ∀ name ∈ root, IsName name)
    (h : ensureIgnored w path entry = .ok (changed, v)) :
    Ran (fun _ => False) (· = root ++ [ignoreFileName]) w v := by
  have hway : w.way (under path ignoreFileName) = root ++ [ignoreFileName] := by
    rw [way_under_name w path (by decide), hroot]
  obtain ⟨found, -, h⟩ := bind_eq_ok.mp h
  -- only a list that is there and lacks the entry is written
  split at h
  · split at h
    · cases h
    · split at h
      · cases h
        exact .refl w
      · dsimp only at h
        split at h
        · rename_i u hwrite
          cases h
          refine ran_write hw ?_ hway hwrite
          rw [hway]
          exact isName_append_singleton hnames (by decide)
        · cases h
          exact .refl w
  · cases h
    exact .refl w

/-- What writing a report goes through: the folders, the report itself, the list of ignored files.
It may end after any of them. -/
theorem writeReport_cases (w : Workspace) (path dir : String) (r : Report) :
    ∃ u o, w.makeFolders (under path dir) ((under path dir).length + 1) = (u, o) ∧
      ((writeReport w path r (.str dir)).1 = u ∧ (writeReport w path r (.str dir)).2.isOk = false ∨
        ∃ x, u.writeText (reportPath path dir) (reportText r) = .ok x ∧
          ((∃ f, ensureIgnored x path dir = .error f ∧
              writeReport w path r (.str dir) = (x, .error f)) ∨
            ∃ changed v, ensureIgnored x path dir = .ok (changed, v) ∧
              writeReport w path r (.str dir) = (v, .ok (reportPath path dir)))) := by
  unfold writeReport
  dsimp only
  split
  · rename_i u f hfolders
    exact ⟨u, some f, hfolders, Or.inl ⟨rfl, rfl⟩⟩
  · rename_i u hfolders
    refine ⟨u, none, hfolders, ?_⟩
    split
    · exact Or.inl ⟨rfl, rfl⟩
    · rename_i x hwrite
      refine Or.inr ⟨x, hwrite, ?_⟩
      split
      · rename_i changed v hignored
        exact Or.inr ⟨changed, v, hignored, rfl⟩
      · rename_i f hignored
        exact Or.inl ⟨f, hignored, rfl⟩

/-- A run that makes folders on the way to a report and touches two files. -/
abbrev RanToReport (root out : Location) : Workspace → Workspace → Prop :=
  Ran (· <+: root ++ out) (IsOutput root out)

theorem isPlain_of_ranToReport (h : RanToReport root out w v) (hw : w.tree.IsPlain)
    (hnames : ∀ name ∈ root ++ out, IsName name) : v.tree.IsPlain := by
  refine h.isPlain hw ?_
  rintro place (hplace | hplace)
  · exact fun name hname => hnames name (hplace.subset hname)
  · exact isName_of_isOutput hnames hplace

theorem isFolder_of_ranToReport (h : RanToReport root out w v) (hw : w.tree.isFolder = true) :
    v.tree.isFolder = true := by
  obtain ⟨tree', rfl, hrun⟩ := h
  obtain ⟨es, hes⟩ := isFolder_iff.mp hw
  have hgrown : Grown (w.tree.get? []) (tree'.get? []) := by
    refine hrun.grown ?_
    rintro (h | h) <;> simp at h
  rw [get?_nil, hes] at hgrown
  obtain ⟨es', hes'⟩ := hgrown.isFolder
  exact isFolder_iff.mpr ⟨es', Option.some.inj hes'⟩

section Writing

variable {path dir : String} {u x : Workspace} {r : Report}

theorem way_reportPath (hroot : w.way path = root) (hdir : ¬IsAbsolute dir) :
    w.way (reportPath path dir) = root ++ (wayOf dir ++ [reportFileName]) := by
  rw [reportPath, way_under_name w _ (by decide), way_under w path hdir, hroot, List.append_assoc]

theorem ran_outputFolders (hw : w.tree.IsPlain) (hroot : w.way path = root)
    (hdir : ¬IsAbsolute dir) (hnames : ∀ name ∈ root ++ wayOf dir, IsName name) {n : Nat}
    {o : Option Fault} (h : w.makeFolders (under path dir) n = (u, o)) :
    RanToReport root (wayOf dir) w u := by
  have harea : w.way (under path dir) <+: root ++ wayOf dir :=
    ⟨[], by rw [List.append_nil, way_under w path hdir, hroot]⟩
  have hmade := ran_makeFolders hw harea hnames n
  rw [h] at hmade
  exact hmade.mono (fun _ => id) fun _ => False.elim

theorem ran_reportFile (hw : w.tree.IsPlain) (hroot : w.way path = root) (hdir : ¬IsAbsolute dir)
    (hnames : ∀ name ∈ root ++ wayOf dir, IsName name)
    (h : w.writeText (reportPath path dir) (reportText r) = .ok x) :
    RanToReport root (wayOf dir) w x := by
  have houtput : IsOutput root (wayOf dir) (w.way (reportPath path dir)) :=
    Or.inl (way_reportPath hroot hdir)
  exact ran_write hw (isName_of_isOutput hnames houtput) houtput h

/-- Writing a report is a run that makes folders on the way to it and touches two files. It is one
also when it ends early. -/
theorem ran_writeReport (hw : w.tree.IsPlain) (hroot : w.way path = root) (hdir : ¬IsAbsolute dir)
    (hnames : ∀ name ∈ root ++ wayOf dir, IsName name) (r : Report) :
    RanToReport root (wayOf dir) w (writeReport w path r (.str dir)).1 := by
  obtain ⟨u, o, hfolders, hrest⟩ := writeReport_cases w path dir r
  have hu := ran_outputFolders hw hroot hdir hnames hfolders
  rcases hrest with ⟨heq, -⟩ | ⟨x, hwrite, hrest⟩
  · rw [heq]
    exact hu
  · have hx := hu.trans (ran_reportFile (isPlain_of_ranToReport hu hw hnames)
      ((hu.way_eq path).trans hroot) hdir hnames hwrite)
    rcases hrest with ⟨f, -, heq⟩ | ⟨changed, v, hignored, heq⟩
    · rw [heq]
      exact hx
    · rw [heq]
      have hlist := ran_ensureIgnored (isPlain_of_ranToReport hx hw hnames)
        ((hx.way_eq path).trans hroot) (fun name h => hnames name (List.mem_append_left _ h))
        hignored
      exact hx.trans (hlist.mono (fun _ => False.elim) fun _ => Or.inr)

/-- A report that was written is there. -/
theorem get?_of_writeReport (hw : w.tree.IsPlain) (hroot : w.way path = root)
    (hdir : ¬IsAbsolute dir) (hnames : ∀ name ∈ root ++ wayOf dir, IsName name)
    (htop : w.tree.isFolder = true) (h : (writeReport w path r (.str dir)).2.isOk = true) :
    (writeReport w path r (.str dir)).1.tree.get? (root ++ (wayOf dir ++ [reportFileName])) =
      some (.file (reportText r).toUTF8) := by
  obtain ⟨u, o, hfolders, ⟨-, hfailed⟩ | ⟨x, hwrite, ⟨f, -, heq⟩ | ⟨changed, v, hignored, heq⟩⟩⟩ :=
    writeReport_cases w path dir r
  · rw [h] at hfailed
    cases hfailed
  · rw [heq] at h
    cases h
  · rw [heq]
    have hu := ran_outputFolders hw hroot hdir hnames hfolders
    have hrootU : u.way path = root := (hu.way_eq path).trans hroot
    have huPlain := isPlain_of_ranToReport hu hw hnames
    have hx := hu.trans (ran_reportFile huPlain hrootU hdir hnames hwrite)
    -- after the report, only the list of ignored files is touched
    obtain ⟨tree', hv, hrun⟩ := ran_ensureIgnored (isPlain_of_ranToReport hx hw hnames)
      ((hx.way_eq path).trans hroot) (fun name h => hnames name (List.mem_append_left _ h))
      hignored
    rw [← List.append_assoc]
    have hother : root ++ wayOf dir ++ [reportFileName] ≠ root ++ [ignoreFileName] := fun heq =>
      absurd (List.singleton_inj.mp (List.append_inj' heq rfl).2) (by decide)
    rw [hv, (hrun.grown hother).file_iff]
    have hway : u.way (reportPath path dir) = root ++ wayOf dir ++ [reportFileName] := by
      rw [way_reportPath hrootU hdir, List.append_assoc]
    refine get?_of_write huPlain ?_ (isFolder_of_ranToReport hu htop) hway hwrite
    rw [hway]
    exact isName_append_singleton hnames (by decide)

end Writing

/-! ### Before and after -/

/-- A tree before and after a report was written below the folder at `root`, into the folder at
`out` below it. -/
structure Rewritten (w : Workspace) (tree' : Entry) (root out : Location) : Prop where
  plain : w.tree.IsPlain
  plain' : tree'.IsPlain
  names : ∀ name ∈ root ++ out, IsName name
  isFolder : ∃ es, w.tree.get? root = some (.folder es)
  run : Run (fun place => place <+: root ++ out ∧ ¬place <+: root) (IsOutput root out) w.tree tree'

theorem not_isOutput_root : ¬IsOutput root out root := by
  rintro (h | h)
  · simp at h
  · simp at h

namespace Rewritten

variable {tree' : Entry}

theorem of_writeReport {path dir : String} (hw : w.tree.IsPlain) (hdir : ¬IsAbsolute dir)
    (hnames : ∀ name ∈ w.way path ++ wayOf dir, IsName name)
    (hroot : ∃ es, w.tree.get? (w.way path) = some (.folder es)) (r : Report) :
    ∃ tree', (writeReport w path r (.str dir)).1 = { w with tree := tree' } ∧
      Rewritten w tree' (w.way path) (wayOf dir) := by
  have hran := ran_writeReport hw rfl hdir hnames r
  have hplain := isPlain_of_ranToReport hran hw hnames
  obtain ⟨tree', hw', hrun⟩ := hran
  rw [hw'] at hplain
  obtain ⟨es, hes⟩ := hroot
  exact ⟨tree', hw', hw, hplain, hnames, ⟨es, hes⟩, hrun.restrict hes not_isOutput_root⟩

/-- The files that are no output are the same. -/
theorem file_iff (h : Rewritten w tree' root out) (hplace : ¬IsOutput root out place)
    {content : ByteArray} :
    tree'.get? place = some (.file content) ↔ w.tree.get? place = some (.file content) :=
  (h.run.grown hplace).file_iff

theorem isFolder' (h : Rewritten w tree' root out) : ∃ es, tree'.get? root = some (.folder es) := by
  obtain ⟨es, hes⟩ := h.isFolder
  exact (hes ▸ h.run.grown not_isOutput_root).isFolder

/-- Every location on the way to the root holds a folder and lets pass, before and after. -/
theorem map_barrier?_eq_of_isPrefix (h : Rewritten w tree' root out) (hplace : place <+: root) :
    (tree'.get? place).map barrier? = (w.tree.get? place).map barrier? := by
  rw [map_barrier?_eq_some_none_iff.mpr (exists_folder_of_isPrefix hplace h.isFolder'),
    map_barrier?_eq_some_none_iff.mpr (exists_folder_of_isPrefix hplace h.isFolder)]

/-- A path below the root leads to the same location if the same locations behind the
root let pass. -/
theorem find_eq (h : Rewritten w tree' root out) {path : String} {below : Location}
    (hway : w.way path = root ++ below) (hbelow : ∀ name ∈ below, IsName name)
    (hkinds : ∀ before name after, below = before ++ name :: after → before ≠ [] →
      (tree'.get? (root ++ before)).map Entry.barrier? =
        (w.tree.get? (root ++ before)).map Entry.barrier?) (follow : Bool) :
    find { w with tree := tree' } follow path = w.find follow path := by
  refine find_congr h.plain.noLink h.plain'.noLink ?_ ?_
  · rw [hway]
    intro name hname
    rcases List.mem_append.mp hname with hname | hname
    · exact h.names name (List.mem_append_left out hname)
    · exact hbelow name hname
  · intro before name after hsplit _
    rw [hway] at hsplit
    -- the location is on the way to the root, or behind it
    rcases List.append_eq_append_iff.mp hsplit with ⟨more, rfl, hmore⟩ | ⟨more, rfl, -⟩
    · cases more with
      | nil =>
        rw [List.append_nil]
        exact h.map_barrier?_eq_of_isPrefix (List.prefix_refl root)
      | cons first rest => exact hkinds (first :: rest) name after hmore (List.cons_ne_nil _ _)
    · exact h.map_barrier?_eq_of_isPrefix ⟨more, rfl⟩

end Rewritten

end Project

end ScriptHealth
