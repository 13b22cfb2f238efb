import ScriptHealth.Proofs.Project.Rewriting
import ScriptHealth.Proofs.Workspace.Destination

/-!
# What writing a report leaves alone

Writing a report makes folders, overwrites the report and may add a line to the list of ignored
files. It may end after each of these. In a tree without links, every other file has the same bytes
afterwards, whatever happens and wherever the folder of the report is: nothing is taken away, a list
of ignored files is not made where there is none, and one that is there only becomes longer at its
end. If no report could be written, no file has changed at all.

## Main definitions

* `Project.Spared` — a tree before and after a report was written

## Main results

* `Project.ensureIgnored_cases` — what adding an entry to the list of ignored files does
* `Project.writeReport_spares_other_files` — writing a report
-/

namespace ScriptHealth

namespace Project

open Workspace Entry Outcome

variable {w v : Workspace} {path entry : String} {report ignored : Location}

/-- A tree before and after a report was written to one location, with a list of ignored files at
another one. -/
structure Spared (before after : Entry) (report ignored : Location) : Prop where
  /-- The other files are the same. -/
  others : ∀ place, place ≠ report → place ≠ ignored → ∀ content,
    (after.get? place = some (.file content) ↔ before.get? place = some (.file content))
  /-- Nothing is taken away. -/
  kept : ∀ place e, before.get? place = some e →
    ∃ e', after.get? place = some e' ∧ e'.isFile = e.isFile ∧ e'.isFolder = e.isFolder ∧
      e'.isDirectory = e.isDirectory
  /-- The list of ignored files was there before. -/
  notCreated : ∀ content', after.get? ignored = some (.file content') →
    ∃ content, before.get? ignored = some (.file content)
  /-- The list of ignored files starts as it did before. -/
  appended : ∀ content, before.get? ignored = some (.file content) →
    ∃ addition, after.get? ignored = some (.file (content ++ addition))

namespace Spared

/-- A run that makes folders and writes the report. -/
theorem of_ran (h : Ran (fun _ => True) (· = report) w v) (hw : w.tree.LinkFree)
    (hne : ignored ≠ report) : Spared w.tree v.tree report ignored where
  others place hreport _ content := h.file_iff hreport
  kept place e he := ((he ▸ (h.kept hw).1 place)).exists_same_kind
  notCreated content' h' := ⟨content', (h.file_iff hne).mp h'⟩
  appended content hcontent := by
    refine ⟨.empty, ?_⟩
    rw [ByteArray.append_empty]
    exact (h.file_iff hne).mpr hcontent

/-- Something is added at the end of the list of ignored files. -/
theorem append_ignored {before after : Entry} (h : Spared before after report ignored)
    {content : ByteArray} (hcontent : after.get? ignored = some (.file content))
    (addition : ByteArray) :
    Spared before (after.put ignored (.file (content ++ addition))) report ignored := by
  have hfile := isWritable_of_file hcontent
  have hlink : ∀ target, after.get? ignored ≠ some (.link target) := by simp [hcontent]
  have hstep : Step (fun _ => False) (· = ignored) after
      (after.put ignored (.file (content ++ addition))) := .file _ rfl hfile
  constructor
  · intro place hreport hignored content'
    exact (hstep.grown hignored).file_iff.trans (h.others place hreport hignored content')
  · intro place e he
    obtain ⟨e', he', hisFile, hisFolder, hisDirectory⟩ := h.kept place e he
    have hput := kept_put_file hfile hlink (content ++ addition) place
    rw [he'] at hput
    obtain ⟨e'', he'', hisFile', hisFolder', hisDirectory'⟩ := hput.exists_same_kind
    exact ⟨e'', he'', hisFile'.trans hisFile, hisFolder'.trans hisFolder,
      hisDirectory'.trans hisDirectory⟩
  · intro _ _
    exact h.notCreated content hcontent
  · intro first hfirst
    -- what is added now comes behind what was added before
    obtain ⟨earlier, hearlier⟩ := h.appended first hfirst
    obtain rfl : content = first ++ earlier := by
      rw [hcontent] at hearlier
      exact Entry.file.inj (Option.some.inj hearlier)
    refine ⟨earlier ++ addition, ?_⟩
    rw [get?_put_of_some hcontent, ByteArray.append_assoc]

end Spared

/-- Adding an entry to the list of ignored files changes nothing, or it adds something at the end of
a list that is there. -/
theorem ensureIgnored_cases {changed : Bool} (hw : w.tree.LinkFree)
    (h : ensureIgnored w path entry = .ok (changed, v)) :
    v = w ∨ ∃ content addition,
      w.tree.get? (w.destination path ++ [ignoreFileName]) = some (.file content) ∧
        v = { w with
          tree := w.tree.put (w.destination path ++ [ignoreFileName])
            (.file (content ++ addition)) } := by
  have hplace : w.destination (under path ignoreFileName) =
      w.destination path ++ [ignoreFileName] :=
    destination_under_name w path (by decide)
  obtain ⟨found, hlook, h⟩ := bind_eq_ok.mp h
  split at h
  · rename_i content
    obtain ⟨place, hfind, hget⟩ := look_eq_some_iff.mp hlook
    -- the list was read from where it is written below
    rw [eq_destination_of_find hw hfind, hplace] at hget
    split at h
    · cases h
    · split at h
      · cases h
        exact Or.inl rfl
      · dsimp only at h
        split at h
        · rename_i u hwrite
          cases h
          obtain ⟨hv, -⟩ := eq_put_of_write hw hwrite
          rw [hplace] at hv
          exact Or.inr ⟨content, _, hget, hv⟩
        · cases h
          exact Or.inl rfl
  · cases h
    exact Or.inl rfl

/-- Adding an entry to the list of ignored files fails with no issue of its own. -/
theorem failsWith_ensureIgnored (w : Workspace) (path entry : String) :
    FailsWith (fun f => ∀ issue, f ≠ .issue issue) (ensureIgnored w path entry) := by
  refine FailsWith.bind ?_ ?_
  · intro f hlook
    cases look_eq_error_iff.mp hlook with
    | longName _ => exact nofun
    | denied _ => exact nofun
  · intro found _
    split
    · split
      · exact .error fun _ h => nomatch h
      · split
        · exact .ok _
        · dsimp only
          split
          · exact .ok _
          · exact .ok _
    · exact .ok _

section Writing

variable {u x : Workspace} {root dir : String} {r : Report}

/-- Once the folders are made, the report is written and nothing else. -/
theorem ran_report (hu : Ran (fun _ => True) (fun _ => False) w u) (hw : w.tree.LinkFree)
    (h : u.writeText (reportPath root dir) (reportText r) = .ok x) :
    Ran (fun _ => True) (· = w.destination (under root dir) ++ [reportFileName]) w x ∧
      (w.tree.isFolder = true → x.tree.get? (w.destination (under root dir) ++ [reportFileName]) =
        some (.file (reportText r).toUTF8)) := by
  obtain ⟨hkept, hfree⟩ := hu.kept hw
  have hplace : u.destination (reportPath root dir) =
      w.destination (under root dir) ++ [reportFileName] := by
    rw [hu.destination_eq, reportPath, destination_under_name w _ (by decide)]
  rw [← hplace]
  constructor
  · exact (hu.mono (fun _ => id) fun _ => False.elim).trans (ran_write_destination hfree h)
  · intro htop
    -- the top of the tree is still a folder
    obtain ⟨es, hes⟩ := isFolder_iff.mp htop
    have htopKept := hkept []
    rw [get?_nil, get?_nil, hes] at htopKept
    obtain ⟨es', hes'⟩ := htopKept.exists_folder
    exact get?_destination_of_write hfree (isFolder_iff.mpr ⟨es', Option.some.inj hes'⟩) h

/-- The list of ignored files is changed at its end only, after the report was written. -/
theorem Spared.ensureIgnored {changed : Bool}
    (hx : Ran (fun _ => True) (· = report) w x) (hw : w.tree.LinkFree)
    (hne : w.destination root ++ [ignoreFileName] ≠ report)
    (h : ensureIgnored x root dir = .ok (changed, v)) :
    Spared w.tree v.tree report (w.destination root ++ [ignoreFileName]) ∧
      ∀ content, x.tree.get? report = some (.file content) →
        v.tree.get? report = some (.file content) := by
  have hspared := Spared.of_ran hx hw hne
  obtain rfl | ⟨content, addition, hcontent, hv⟩ := ensureIgnored_cases (hx.kept hw).2 h
  · exact ⟨hspared, fun _ => id⟩
  · rw [hx.destination_eq] at hcontent hv
    have hran : Ran (fun _ => False) (· = w.destination root ++ [ignoreFileName]) x v :=
      ⟨_, hv, .single (.file _ rfl (isWritable_of_file hcontent))⟩
    refine ⟨?_, fun content' => (hran.file_iff (Ne.symm hne)).mpr⟩
    rw [hv]
    dsimp only
    exact hspared.append_ignored hcontent addition

/-- **What writing a report leaves alone.** In a tree without links, writing a report changes no
file but the report and the list of ignored files, takes nothing away, and only adds to the end of a
list of ignored files that is there. If the report cannot be written, no file changes. If it is
written, it is there. -/
theorem writeReport_spares_other_files (w : Workspace) (hw : w.tree.LinkFree) (root dir : String)
    (r : Report) :
    let after := (writeReport w root r (.str dir)).1
    let report := w.destination (under root dir) ++ [reportFileName]
    Spared w.tree after.tree report (w.destination root ++ [ignoreFileName]) ∧
      (∀ issue, (writeReport w root r (.str dir)).2 = .error (.issue issue) →
        ∀ place content, after.tree.get? place = some (.file content) ↔
          w.tree.get? place = some (.file content)) ∧
      (w.tree.isFolder = true → ∀ path, (writeReport w root r (.str dir)).2 = .ok path →
        after.tree.get? report = some (.file (reportText r).toUTF8)) := by
  intro after report
  have hne : w.destination root ++ [ignoreFileName] ≠ report := fun heq =>
    absurd (List.singleton_inj.mp (List.append_inj' heq rfl).2) (by decide)
  obtain ⟨u, o, hfolders, hrest⟩ := writeReport_cases w root dir r
  have hu : Ran (fun _ => True) (fun _ => False) w u := by
    have hmade := ran_makeFolders_anywhere w (under root dir) ((under root dir).length + 1)
    rwa [hfolders] at hmade
  rcases hrest with ⟨heq, hfailed⟩ | ⟨x, hwrite, ⟨f, hignored, heq⟩ | ⟨changed, v, hignored, heq⟩⟩
  · -- no report was written, and all that there may be is new folders
    have hafter : after = u := heq
    rw [hafter]
    refine ⟨.of_ran (hu.mono (fun _ => id) fun _ => False.elim) hw hne, ?_, ?_⟩
    · intro issue _ place content
      exact hu.file_iff id
    · intro _ path hok
      rw [hok] at hfailed
      cases hfailed
  · -- the report was written, and the list of ignored files could not be read
    obtain ⟨hx, -⟩ := ran_report hu hw hwrite
    have hafter : after = x := congrArg Prod.fst heq
    rw [hafter, heq]
    refine ⟨.of_ran hx hw hne, ?_, ?_⟩
    · intro issue hissue
      exact absurd (Except.error.inj hissue) (failsWith_ensureIgnored x root dir f hignored issue)
    · rintro _ path ⟨⟩
  · -- the report was written, and the list of ignored files was changed if need be
    obtain ⟨hx, hthere⟩ := ran_report hu hw hwrite
    obtain ⟨hspared, hkept⟩ := Spared.ensureIgnored hx hw hne hignored
    have hafter : after = v := congrArg Prod.fst heq
    rw [hafter, heq]
    refine ⟨hspared, ?_, ?_⟩
    · rintro issue ⟨⟩
    · intro htop path _
      exact hkept _ (hthere htop)

end Writing

/-- A project with a source file and a list of ignored files. -/
def ignoringTree : Entry :=
  .folder [("app", .folder [(".gitignore", .file "node_modules".toUTF8),
    ("src", .folder [("a.ts", .file .empty)])])]

theorem linkFree_ignoringTree : ignoringTree.LinkFree := by
  have hsrc : (Entry.folder [("a.ts", .file .empty)]).IsPlain :=
    isPlain_folder (by decide) (by decide) (by simpa using isPlain_file _)
  have happ : (Entry.folder [(".gitignore", .file "node_modules".toUTF8),
      ("src", .folder [("a.ts", .file .empty)])]).IsPlain :=
    isPlain_folder (by decide) (by decide) (by simpa using ⟨isPlain_file _, hsrc⟩)
  exact (isPlain_folder (by decide) (by decide) (by simpa using happ)).noLink

theorem destination_ignoringTree :
    Workspace.destination { tree := ignoringTree } "app" = ["app"] ∧
      Workspace.destination { tree := ignoringTree } (under "app" "src/../out") =
        ["app", "out"] := by
  constructor <;> decide +kernel

/-- A report about nothing. -/
def emptyReport : Report where
  projectName := ""
  timestamp := ""
  stats := {}
  hotspots := []
  graph := {}
  packages := {}
  security := []
  performance := {}
  score := 0

/-- The tree with a folder for the report. -/
def outputTree : Entry := ignoringTree.put ["app", "out"] (.folder [])

/-- The tree with the report. -/
def reportTree : Entry :=
  outputTree.put ["app", "out", reportFileName] (.file (reportText emptyReport).toUTF8)

/-- The paths that are asked for when reports are written in these trees, with their ways. -/
def ignoringPaths : List (String × List String) :=
  [(under "app" "src/../out", ["app", "src", "..", "out"]),
   (reportPath "app" "src/../out", ["app", "src", "..", "out", reportFileName]),
   (under "app" ignoreFileName, ["app", ignoreFileName]),
   (under "app" "src/a.ts", ["app", "src", "a.ts"])]

theorem find_ignoringPaths (tree : Entry) (follow : Bool) {path : String} (names : List String)
    {p : Location} (hpath : (path, names) ∈ ignoringPaths)
    (h : Leads tree follow linkLimit [] names p) :
    Workspace.find { tree } follow path = .ok p := by
  have htable : ∀ e ∈ ignoringPaths, IsUsable {} e.1 ∧ Workspace.way {} e.1 = e.2 := by
    decide +kernel
  obtain ⟨husable, hway⟩ := htable _ hpath
  exact find_of_way_eq (w := { tree }) husable hway h

/-- The report can be written to a new folder. -/
theorem writeReport_ignoringTree :
    (writeReport { tree := ignoringTree } "app" emptyReport (.str "src/../out")).2 =
      .ok (reportPath "app" "src/../out") := by
  have hmade : makeFolders { tree := ignoringTree } (under "app" "src/../out")
      ((under "app" "src/../out").length + 1) = ({ tree := outputTree }, none) := by
    have hfind : Workspace.find { tree := ignoringTree } false (under "app" "src/../out") =
        .ok ["app", "out"] :=
      find_ignoringPaths _ _ ["app", "src", "..", "out"] (by simp [ignoringPaths])
        (.enter (by decide) rfl (.enter (by decide) rfl
          (.up (.stop_of_none (by decide) rfl))))
    unfold makeFolders makeFolder
    rw [hfind]
    rfl
  have hwrite : writeText { tree := outputTree } (reportPath "app" "src/../out")
      (reportText emptyReport) = .ok { tree := reportTree } := by
    have hfind : Workspace.find { tree := outputTree } true (reportPath "app" "src/../out") =
        .ok ["app", "out", reportFileName] :=
      find_ignoringPaths _ _ ["app", "src", "..", "out", reportFileName] (by simp [ignoringPaths])
        (.enter (by decide) rfl (.enter (by decide) rfl (.up (.enter (by decide) rfl
          (.stop_of_none (by decide) rfl)))))
    exact write_of_find hfind (isWritable_of_none rfl) _
  have hfind : Workspace.find { tree := reportTree } true (under "app" ignoreFileName) =
      .ok ["app", ignoreFileName] :=
    find_ignoringPaths _ _ ["app", ignoreFileName] (by simp [ignoringPaths])
      (.enter (by decide) rfl (.stop_of_file (by decide) rfl))
  have hlist : reportTree.get? ["app", ignoreFileName] = some (.file "node_modules".toUTF8) := rfl
  have hlook : Workspace.look { tree := reportTree } (under "app" ignoreFileName) =
      .ok (some (.file "node_modules".toUTF8)) :=
    look_eq_some_iff.mpr ⟨_, hfind, hlist⟩
  have htext : strictText? "node_modules".toUTF8.data.toList = some "node_modules".toList ∧
      isIgnored "node_modules".toList "src/../out".toList = false := by
    decide +kernel
  unfold writeReport ensureIgnored
  dsimp only
  rw [hmade]
  dsimp only
  rw [hwrite]
  dsimp only
  rw [hlook, Outcome.ok_bind]
  dsimp only
  rw [htext.1]
  dsimp only
  rw [htext.2, write_of_find hfind (isWritable_of_file hlist)]
  rfl

/-- No report can be written where the source file is. -/
theorem writeReport_onto_file :
    ∃ issue : Issue, issue.kind = .configuration ∧
      (writeReport { tree := ignoringTree } "app" emptyReport (.str "src/a.ts")).2 =
        .error (.issue issue) := by
  have hleads (follow : Bool) :
      Leads ignoringTree follow linkLimit [] ["app", "src", "a.ts"] ["app", "src", "a.ts"] :=
    .enter (by decide) rfl (.enter (by decide) rfl (.stop_of_file (by decide) rfl))
  have hfind (follow : Bool) :=
    find_ignoringPaths ignoringTree follow ["app", "src", "a.ts"]
      (show (under "app" "src/a.ts", _) ∈ _ by simp [ignoringPaths]) (hleads follow)
  have hfolder : Workspace.isFolder { tree := ignoringTree } (under "app" "src/a.ts") =
      .ok false := by
    unfold Workspace.isFolder
    rw [look_of_find (hfind true)]
    rfl
  have hmade : makeFolders { tree := ignoringTree } (under "app" "src/a.ts")
      ((under "app" "src/a.ts").length + 1) =
        ({ tree := ignoringTree }, some (FileFault.taken.toFault (under "app" "src/a.ts"))) := by
    unfold makeFolders makeFolder makeFolders.keepUnlessFolder
    rw [hfind false, hfolder]
    rfl
  unfold writeReport
  dsimp only
  rw [hmade]
  exact ⟨_, rfl, rfl⟩

/-- The report is written, the source file is left alone and the list of ignored files is kept,
although the path of the report leads through the folder of the source file. A report that cannot be
written because a file is in its way changes no file. -/
theorem writeReport_spares_other_files_ignoringTree :
    let after := (writeReport { tree := ignoringTree } "app" emptyReport (.str "src/../out")).1
    let after' := (writeReport { tree := ignoringTree } "app" emptyReport (.str "src/a.ts")).1
    ignoringTree.LinkFree ∧ after.tree.get? ["app", "src", "a.ts"] = some (.file .empty) ∧
      (∃ addition, after.tree.get? ["app", ".gitignore"] =
        some (.file ("node_modules".toUTF8 ++ addition))) ∧
      after.tree.get? ["app", "out", "report.json"] =
        some (.file (reportText emptyReport).toUTF8) ∧
      (∃ issue : Issue, issue.kind = .configuration ∧
        (writeReport { tree := ignoringTree } "app" emptyReport (.str "src/a.ts")).2 =
          .error (.issue issue)) ∧
      ∀ place content, after'.tree.get? place = some (.file content) ↔
        ignoringTree.get? place = some (.file content) := by
  intro after after'
  obtain ⟨hspared, -, hwritten⟩ := writeReport_spares_other_files { tree := ignoringTree }
    linkFree_ignoringTree "app" "src/../out" emptyReport
  obtain ⟨-, hunchanged, -⟩ := writeReport_spares_other_files { tree := ignoringTree }
    linkFree_ignoringTree "app" "src/a.ts" emptyReport
  rw [destination_ignoringTree.1, destination_ignoringTree.2] at hspared
  rw [destination_ignoringTree.2] at hwritten
  obtain ⟨issue, hkind, hissue⟩ := writeReport_onto_file
  refine ⟨linkFree_ignoringTree, ?_, hspared.appended _ rfl,
    hwritten rfl _ writeReport_ignoringTree, ⟨issue, hkind, hissue⟩, hunchanged issue hissue⟩
  exact (hspared.others ["app", "src", "a.ts"] (by decide) (by decide) _).mpr rfl

end Project

end ScriptHealth
