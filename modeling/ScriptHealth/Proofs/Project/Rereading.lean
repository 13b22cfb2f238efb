import ScriptHealth.Project.Analysis
import ScriptHealth.Proofs.Project.Listing
import ScriptHealth.Proofs.Project.Packages
import ScriptHealth.Proofs.Project.Rewriting

/-!
# What is read before and after a report was written

An analysis asks the tree of a project for its files, for its manifest and its lock file, and for
the sizes of the installed packages. Only the list of files can hold the report, and it does so
exactly if the selection takes the report and enters all folders on the way to it, and the path of
the last of them is not too long. The rest reads the same before and after, unless the report lies
among the installed packages. The folders that are passed over are the same as well, unless the path
of a folder that was made for the report is too long.

## Main definitions

* `Project.TakesReport` — whether a selection lists the report
* `Project.IsLocal` — a name that stays in the folder in which it is looked up

## Main results

* `Project.Rewritten.filesBelow_eq`, `Project.Rewritten.filesBelow_perm_cons` — the files that are
  listed are the same, or there is the report besides
* `Project.Rewritten.skippedBelow_eq` — the folders that are passed over are the same
* `Project.Rewritten.loadSources_eq`, `Project.Rewritten.loadManifest_eq`,
  `Project.Rewritten.auditIfAsked_eq`, `Project.Rewritten.installedSize_eq` — what else an analysis
  reads is the same
-/

namespace ScriptHealth

namespace Project

open Workspace Entry Location Outcome

variable {w v : Workspace} {root out place : Location} {path : String}

/-! ### The listing -/

/-- A selection lists the report that is written to a folder below a root: it takes the file, it
enters every folder on the way, and the path of the last of them is not too long. -/
def TakesReport (s : Selection) (root : String) (out : Location) : Prop :=
  s.takesFile reportFileName = true ∧ (∀ folder ∈ out, s.entersFolder folder = true) ∧
    (pathBelow root out).utf8ByteSize ≤ pathLimit

instance (s : Selection) (root : String) (out : Location) : Decidable (TakesReport s root out) :=
  inferInstanceAs (Decidable (_ ∧ _ ∧ _))

/-- In a tree without links, a file is listed if it is there, its names are wanted and the path of
its folder is not too long. -/
theorem listed_iff_of_isPlain (hw : w.tree.IsPlain) {s : Selection} {folders : Location}
    {name : String} :
    Listed w s path root folders name ↔
      (∃ content, w.tree.get? (root ++ (folders ++ [name])) = some (.file content)) ∧
        s.takesFile name = true ∧ (∀ folder ∈ folders, s.entersFolder folder = true) ∧
          (pathBelow path folders).utf8ByteSize ≤ pathLimit := by
  constructor
  · rintro ⟨⟨⟨e, he, hfile⟩, hvisible, hexcluded, hwanted, hway⟩, hreached⟩
    refine ⟨?_, takesFile_iff.mpr ⟨hvisible, hexcluded, hwanted⟩, ?_, hreached⟩
    · cases e with
      | file content => exact ⟨content, he⟩
      | link target => exact absurd he (hw.noLink _ target)
      | closed => exact absurd trivial hfile
      | folder es => exact absurd trivial hfile
    · intro folder hfolder
      obtain ⟨before, after, hsplit⟩ := List.append_of_mem hfolder
      exact entersFolder_iff.mpr (hway before folder after hsplit).2
  · rintro ⟨⟨content, hcontent⟩, htakes, henters, hreached⟩
    obtain ⟨hvisible, hexcluded, hwanted⟩ := takesFile_iff.mp htakes
    refine ⟨⟨⟨_, hcontent, id⟩, hvisible, hexcluded, hwanted, ?_⟩, hreached⟩
    rintro before folder after rfl
    refine ⟨?_, entersFolder_iff.mp (henters folder (by simp))⟩
    -- a file stands behind the folder, so the folder is there
    have hbehind : root ++ ((before ++ folder :: after) ++ [name]) =
        (root ++ (before ++ [folder])) ++ (after ++ [name]) := by
      simp
    rw [hbehind] at hcontent
    cases hrest : after ++ [name] with
    | nil => simp at hrest
    | cons next more =>
      rw [hrest] at hcontent
      obtain ⟨es, -, hes, -⟩ := exists_folder_of_get? hcontent
      exact ⟨es, hes⟩

/-- The list of ignored files is hidden, so a wanted file that is touched is the report. -/
theorem eq_report_of_isOutput {s : Selection} {folders : Location} {name : String}
    (htakes : s.takesFile name = true) (h : IsOutput root out (root ++ (folders ++ [name]))) :
    folders ++ [name] = out ++ [reportFileName] := by
  rcases h with h | h
  · exact List.append_cancel_left h
  · have hlast := List.append_cancel_left h
    obtain ⟨-, hname⟩ := List.append_inj' (hlast.trans (List.nil_append _).symm) rfl
    obtain rfl := List.singleton_inj.mp hname
    exact absurd htakes (by simp [Selection.takesFile, Selection.isHidden, ignoreFileName])

/-- A file that is listed is touched only if the selection takes the report. -/
theorem not_isOutput_of_listed {s : Selection} (hs : ¬TakesReport s path out)
    {folders : Location} {name : String} (htakes : s.takesFile name = true)
    (henters : ∀ folder ∈ folders, s.entersFolder folder = true)
    (hreached : (pathBelow path folders).utf8ByteSize ≤ pathLimit) :
    ¬IsOutput root out (root ++ (folders ++ [name])) := by
  intro h
  obtain ⟨rfl, hname⟩ := List.append_inj' (eq_report_of_isOutput htakes h) rfl
  obtain rfl := List.singleton_inj.mp hname
  exact hs ⟨htakes, henters, hreached⟩

/-- Writing changes what cannot be listed only where it makes a folder whose path is too long. -/
theorem exists_unlistable_iff {before after : Option Entry} {f : FileFault}
    (hkept : Kept before after)
    (hmade : before = none → ∀ es, after = some (.folder es) → path.utf8ByteSize ≤ pathLimit) :
    (∃ e, after = some e ∧ Unlistable path e f) ↔ ∃ e, before = some e ∧ Unlistable path e f := by
  cases hkept with
  | same => exact Iff.rfl
  | folder es es' => simp [unlistable_folder]
  | file content content' => simp [not_unlistable_file]
  | newFolder es =>
    have hfits := Nat.not_lt.mpr (hmade rfl es rfl)
    simp [unlistable_folder, hfits]
  | newFile content => simp [not_unlistable_file]

namespace Rewritten

variable {tree' : Entry} {s : Selection} {es es' : List (String × Entry)}

/-- All files but the report are listed after exactly if they are listed before; the report as well,
if the selection does not take it. -/
theorem mem_filesBelow_iff (h : Rewritten w tree' root out)
    (hes : w.tree.get? root = some (.folder es)) (hes' : tree'.get? root = some (.folder es'))
    {p : Location} (hp : p = out ++ [reportFileName] → ¬TakesReport s path out) :
    p ∈ filesBelow { w with tree := tree' } s path (.folder es') ↔
      p ∈ filesBelow w s path (.folder es) := by
  rw [mem_filesBelow (w := { w with tree := tree' }) h.plain'.wellFormed hes' rfl,
    mem_filesBelow h.plain.wellFormed hes rfl]
  refine exists_congr fun folders => exists_congr fun name => and_congr_right fun hsplit => ?_
  rw [listed_iff_of_isPlain (w := { w with tree := tree' }) h.plain',
    listed_iff_of_isPlain h.plain]
  refine and_congr_left fun hwanted => exists_congr fun content => h.file_iff fun houtput => ?_
  have hreport := hsplit.trans (eq_report_of_isOutput hwanted.1 houtput)
  exact not_isOutput_of_listed (hp hreport) hwanted.1 hwanted.2.1 hwanted.2.2 houtput

/-- The same files are listed below the root. -/
theorem filesBelow_eq (h : Rewritten w tree' root out) (hs : ¬TakesReport s path out)
    (hes : w.tree.get? root = some (.folder es)) (hes' : tree'.get? root = some (.folder es')) :
    filesBelow { w with tree := tree' } s path (.folder es') =
      filesBelow w s path (.folder es) :=
  -- both lists are in the order of the listing, so they are equal if they hold the same locations
  List.Pairwise.eq_of_mem_iff (pairwise_filesBelow (h.plain'.wellFormed.of_get? hes'))
    (pairwise_filesBelow (h.plain.wellFormed.of_get? hes)) fun _ =>
      h.mem_filesBelow_iff hes hes' fun _ => hs

/-- Besides the files that were listed before, a new report is listed. -/
theorem filesBelow_perm_cons (h : Rewritten w tree' root out) (hs : TakesReport s path out)
    (hes : w.tree.get? root = some (.folder es)) (hes' : tree'.get? root = some (.folder es'))
    (hnone : ∀ content, w.tree.get? (root ++ (out ++ [reportFileName])) ≠ some (.file content))
    {content : ByteArray}
    (hreport : tree'.get? (root ++ (out ++ [reportFileName])) = some (.file content)) :
    (filesBelow { w with tree := tree' } s path (.folder es')).Perm
      ((out ++ [reportFileName]) :: filesBelow w s path (.folder es)) := by
  have hnodup {u : Workspace} {ds : List (String × Entry)} (hu : u.tree.IsPlain)
      (hds : u.tree.get? root = some (.folder ds)) : (filesBelow u s path (.folder ds)).Nodup :=
    (nodup_paths_filesBelow hu.wellFormed hds rfl).of_map _
  have hfresh : out ++ [reportFileName] ∉ filesBelow w s path (.folder es) := by
    rw [mem_filesBelow h.plain.wellFormed hes rfl]
    rintro ⟨folders, name, hsplit, hlisted⟩
    obtain ⟨⟨c, hc⟩, -⟩ := (listed_iff_of_isPlain h.plain).mp hlisted
    exact hnone c (hsplit ▸ hc)
  refine (List.perm_ext_iff_of_nodup (hnodup (u := { w with tree := tree' }) h.plain' hes')
    (List.nodup_cons.mpr ⟨hfresh, hnodup h.plain hes⟩)).mpr fun p => ?_
  rw [List.mem_cons]
  by_cases hp : p = out ++ [reportFileName]
  · have hlisted := (listed_iff_of_isPlain (w := { w with tree := tree' }) h.plain').mpr
      ⟨⟨content, hreport⟩, hs⟩
    exact iff_of_true ((mem_filesBelow (w := { w with tree := tree' }) h.plain'.wellFormed hes'
      rfl).mpr ⟨out, _, hp, hlisted⟩) (Or.inl hp)
  · rw [or_iff_right hp, h.mem_filesBelow_iff hes hes' fun heq => absurd heq hp]

/-- A folder was there before, or it is on the way to the report. -/
theorem folder_or_isPrefix (h : Rewritten w tree' root out)
    (hnew : tree'.get? place = some (.folder es')) :
    (∃ es, w.tree.get? place = some (.folder es)) ∨ place <+: root ++ out := by
  rcases h.run.folder_or_isPrefix h.plain.noLink hnew with
    hold | ⟨made, ⟨hmade, -⟩, hbefore⟩ | ⟨file, rfl | rfl, hbefore, hne⟩
  · exact .inl hold
  · exact .inr (hbefore.trans hmade)
  · rw [← List.append_assoc] at hbefore hne
    exact .inr ((List.prefix_concat_iff.mp hbefore).resolve_left hne)
  · exact .inr (((List.prefix_concat_iff.mp hbefore).resolve_left hne).trans
      (List.prefix_append root out))

/-- The same folders are passed over, unless one is made for the report whose path is too long. -/
theorem skipped_iff (h : Rewritten w tree' root out)
    (hreached : (pathBelow path out).utf8ByteSize ≤ pathLimit)
    (hes : w.tree.get? root = some (.folder es)) (hes' : tree'.get? root = some (.folder es'))
    {folders : Location} {f : FileFault} :
    Skipped s path (.folder es') folders f ↔ Skipped s path (.folder es) folders f := by
  have hget : (Entry.folder es).get? folders = w.tree.get? (root ++ folders) := by
    rw [get?_append, hes, Option.bind_some]
  have hget' : (Entry.folder es').get? folders = tree'.get? (root ++ folders) := by
    rw [get?_append, hes', Option.bind_some]
  have hkept := (h.run.kept h.plain.noLink).1 (root ++ folders)
  rw [← hget, ← hget'] at hkept
  have hsame := exists_unlistable_iff (f := f) hkept fun hnone ds hds => by
    -- the path of a new folder is part of that of the report's
    rw [hget'] at hds
    obtain ⟨_, hold⟩ | hbefore := h.folder_or_isPrefix hds
    · cases (hget.symm.trans hnone).symm.trans hold
    · have hbelow := (List.prefix_append_right_inj root).mp hbefore
      exact (utf8ByteSize_pathBelow_le_of_isPrefix path hbelow).trans hreached
  exact ⟨fun hskipped => ⟨hsame.mp hskipped.isUnlistable, hskipped.way⟩,
    fun hskipped => ⟨hsame.mpr hskipped.isUnlistable, hskipped.way⟩⟩

theorem skippedBelow_eq (h : Rewritten w tree' root out)
    (hreached : (pathBelow path out).utf8ByteSize ≤ pathLimit)
    (hes : w.tree.get? root = some (.folder es)) (hes' : tree'.get? root = some (.folder es')) :
    skippedBelow s path (.folder es') = skippedBelow s path (.folder es) :=
  skippedBelow_congr (h.plain'.wellFormed.of_get? hes') (h.plain.wellFormed.of_get? hes)
    fun _ _ => h.skipped_iff hreached hes hes'

/-- The root leads to the same location, and it is open before and after. -/
theorem exists_look (h : Rewritten w tree' root out) (hway : w.way path = root)
    (hfind : w.find true path = .ok root) :
    ∃ es es', w.tree.get? root = some (.folder es) ∧ tree'.get? root = some (.folder es') ∧
      w.look path = .ok (some (.folder es)) ∧
      look { w with tree := tree' } path = .ok (some (.folder es')) := by
  obtain ⟨es, hes⟩ := h.isFolder
  obtain ⟨es', hes'⟩ := h.isFolder'
  have hfind' : find { w with tree := tree' } true path = .ok root := by
    rw [h.find_eq (hway.trans (List.append_nil root).symm) (by simp) (by simp) true, hfind]
  exact ⟨es, es', hes, hes', look_eq_some_iff.mpr ⟨root, hfind, hes⟩,
    look_eq_some_iff.mpr ⟨root, hfind', hes'⟩⟩

end Rewritten

/-! ### What an analysis reads -/

section Reading

variable {tree' : Entry}

/-- A path leads to the same entry if it leads to the same location and the entry there is the
same. -/
theorem entry_congr (hfind : find { w with tree := tree' } true path = w.find true path)
    (hget : ∀ p, w.find true path = .ok p → tree'.get? p = w.tree.get? p) :
    entry { w with tree := tree' } path = w.entry path := by
  cases hplace : w.find true path with
  | error f =>
    unfold entry
    rw [hfind, hplace]
    rfl
  | ok p => rw [entry_of_find (hfind.trans hplace), entry_of_find hplace, hget p hplace]

/-- A path is looked up alike, unless what is there is no file, neither before nor after. -/
theorem look_congr (hfind : find { w with tree := tree' } true path = w.find true path)
    (hfile : ∀ p content, w.find true path = .ok p →
      (tree'.get? p = some (.file content) ↔ w.tree.get? p = some (.file content))) :
    look { w with tree := tree' } path = w.look path ∨
      ∃ o o', w.look path = .ok o ∧ look { w with tree := tree' } path = .ok o' ∧
        (∀ content, o ≠ some (.file content)) ∧ ∀ content, o' ≠ some (.file content) := by
  cases hplace : w.find true path with
  | error f =>
    refine Or.inl ?_
    have hentry := entry_congr hfind (by simp [hplace])
    unfold look
    rw [hentry]
  | ok p =>
    have hold := look_of_find hplace
    have hnew : look { w with tree := tree' } path = .ok (tree'.get? p) :=
      look_of_find (hfind.trans hplace)
    by_cases hsome : ∃ content, w.tree.get? p = some (.file content)
    · obtain ⟨content, hcontent⟩ := hsome
      exact Or.inl (by rw [hold, hnew, hcontent, (hfile p content hplace).mpr hcontent])
    · refine Or.inr ⟨_, _, hold, hnew, fun content h => hsome ⟨content, h⟩, fun content h => ?_⟩
      exact hsome ⟨content, (hfile p content hplace).mp h⟩

end Reading

/-- A name that stays in the folder in which it is looked up. -/
def IsLocal (name : String) : Prop := ¬IsAbsolute name ∧ ∀ n ∈ wayOf name, IsName n

theorem isLocal_of_isName {name : String} (h : IsName name) : IsLocal name := by
  obtain ⟨hway, hrelative⟩ := wayOf_of_isName h
  exact ⟨hrelative, by rwa [hway, List.forall_mem_singleton]⟩

namespace Rewritten

variable {tree' : Entry} {s : Selection}

/-- The listed files have the same content. -/
theorem loadSources_eq (h : Rewritten w tree' root out) (hs : ¬TakesReport s path out)
    (hway : w.way path = root) {es : List (String × Entry)}
    (hes : w.tree.get? root = some (.folder es)) (workers : Value) :
    loadSources { w with tree := tree' } path
        ((filesBelow w s path (.folder es)).map "/".intercalate) workers =
      loadSources w path ((filesBelow w s path (.folder es)).map "/".intercalate) workers := by
  unfold loadSources
  refine congrArg _ (funext fun _ => ?_)
  apply mapM_congr
  intro file hfile
  obtain ⟨p, hp, rfl⟩ := List.mem_map.mp hfile
  obtain ⟨folders, name, rfl, hlisted⟩ := (mem_filesBelow h.plain.wellFormed hes rfl).mp hp
  obtain ⟨⟨content, hcontent⟩, htakes, henters, hreached⟩ :=
    (listed_iff_of_isPlain h.plain).mp hlisted
  have hcontent' :=
    (h.file_iff (not_isOutput_of_listed hs htakes henters hreached)).mpr hcontent
  have hnames : ∀ n ∈ folders ++ [name], IsName n := fun n hn =>
    h.plain.isName_of_get? hcontent n (List.mem_append_right root hn)
  obtain ⟨hwayOf, hrelative⟩ := wayOf_intercalate (by simp) fun n hn => (hnames n hn).1
  have hplace : w.way (under path ("/".intercalate (folders ++ [name]))) =
      root ++ (folders ++ [name]) := by
    rw [way_under w path hrelative, hway, hwayOf]
  -- all folders on the way are there before and after, since the file is
  have hfind := h.find_eq hplace hnames (by
    intro before next after hsplit _
    rw [hsplit, ← List.append_assoc] at hcontent hcontent'
    obtain ⟨_, -, hold, -⟩ := exists_folder_of_get? hcontent
    obtain ⟨_, -, hnew, -⟩ := exists_folder_of_get? hcontent'
    rw [hold, hnew]
    rfl) true
  have hentry := entry_congr hfind (by
    intro p hp
    have hp : p = root ++ (folders ++ [name]) := by
      rw [← hplace]
      refine eq_way_of_find h.plain.noLink ?_ hp
      rw [hplace]
      exact h.plain.isName_of_get? hcontent
    rw [hp, hcontent, hcontent'])
  unfold loadSource
  dsimp only
  have hread : read { w with tree := tree' } (under path ("/".intercalate (folders ++ [name]))) =
      w.read (under path ("/".intercalate (folders ++ [name]))) := by
    unfold Workspace.read
    rw [hentry]
  rw [hread]

/-- A file of the root that is no output is looked up alike. -/
theorem look_child_congr (h : Rewritten w tree' root out) (hway : w.way path = root)
    (name : String) (hname : IsName name)
    (houtput : name ≠ reportFileName ∧ name ≠ ignoreFileName) :
    look { w with tree := tree' } (under path name) = w.look (under path name) ∨
      ∃ o o', w.look (under path name) = .ok o ∧
        look { w with tree := tree' } (under path name) = .ok o' ∧
        (∀ content, o ≠ some (.file content)) ∧ ∀ content, o' ≠ some (.file content) := by
  have hplace : w.way (under path name) = root ++ [name] := by
    rw [way_under_name w path hname, hway]
  have hnames : ∀ n ∈ root ++ [name], IsName n :=
    isName_append_singleton (fun n hn => h.names n (List.mem_append_left out hn)) hname
  have hfind := h.find_eq hplace (List.forall_mem_singleton.mpr hname) (by
    intro before next after hsplit hne
    -- nothing stands between the root and the file
    have hlength := congrArg List.length hsplit
    rw [List.length_singleton, List.length_append, List.length_cons] at hlength
    exact absurd (List.length_eq_zero_iff.mp (by omega)) hne) true
  refine look_congr hfind fun p content hp => ?_
  have hp : p = root ++ [name] := by
    rw [← hplace]
    exact eq_way_of_find h.plain.noLink (by rwa [hplace]) hp
  rw [hp]
  refine h.file_iff ?_
  rintro (heq | heq)
  · have hlast := List.append_cancel_left heq
    rw [← List.nil_append [name]] at hlast
    exact houtput.1 (List.singleton_inj.mp (List.append_inj' hlast rfl).2)
  · exact houtput.2 (List.singleton_inj.mp (List.append_cancel_left heq))

theorem loadManifest_eq (h : Rewritten w tree' root out) (hway : w.way path = root) :
    loadManifest { w with tree := tree' } path = loadManifest w path := by
  have hmissing {u : Workspace} {o : Option Entry}
      (hlook : u.look (under path Manifest.fileName) = .ok o)
      (ho : ∀ content, o ≠ some (.file content)) :
      loadManifest u path = (do
        Logged.note .info manifestLogger "No %s found; skipping package classification"
          [.text Manifest.fileName]
        return none) := by
    unfold loadManifest
    dsimp only
    rw [hlook]
    cases o with
    | none => rfl
    | some e =>
      cases e with
      | file content => exact absurd rfl (ho content)
      | link _ => rfl
      | closed => rfl
      | folder _ => rfl
  rcases h.look_child_congr hway Manifest.fileName (by decide) (by decide) with
    hlook | ⟨o, o', hold, hnew, ho, ho'⟩
  · unfold loadManifest
    dsimp only
    rw [hlook]
  · rw [hmissing hold ho, hmissing hnew ho']

theorem auditIfAsked_eq (h : Rewritten w tree' root out) (hway : w.way path = root)
    (config : Config) (tools : Tools) :
    auditIfAsked { w with tree := tree' } path config tools =
      auditIfAsked w path config tools := by
  have hfile (name : String) (hname : IsName name)
      (houtput : name ≠ reportFileName ∧ name ≠ ignoreFileName) :
      Workspace.isFile { w with tree := tree' } (under path name) =
        w.isFile (under path name) := by
    have hother {o : Option Entry} (ho : ∀ content, o ≠ some (.file content)) :
        (o.map Entry.isFile).getD false = false := by
      cases o with
      | none => rfl
      | some e =>
        cases e with
        | file content => exact absurd rfl (ho content)
        | link _ => rfl
        | closed => rfl
        | folder _ => rfl
    unfold Workspace.isFile
    rcases h.look_child_congr hway name hname houtput with hlook | ⟨o, o', hold, hnew, ho, ho'⟩
    · rw [hlook]
    · rw [hold, hnew]
      simp only [Except.map, hother ho, hother ho']
  have hauditable : isAuditable { w with tree := tree' } path = isAuditable w path := by
    unfold isAuditable
    rw [hfile Manifest.fileName (by decide) (by decide),
      hfile Manifest.lockFileName (by decide) (by decide)]
  unfold auditIfAsked audit
  rw [hauditable]

/-- The installed packages are the same, if the report is not among them. -/
theorem get?_packages (h : Rewritten w tree' root out) (hout : out.head? ≠ some packageFolder)
    (rest : Location) :
    tree'.get? (root ++ packageFolder :: rest) = w.tree.get? (root ++ packageFolder :: rest) := by
  apply h.run.get?_eq
  intro touched htouched
  -- whatever is touched goes on behind the root with another name
  obtain ⟨first, more, rfl, hfirst⟩ : ∃ first more, touched = root ++ first :: more ∧
      first ≠ packageFolder := by
    rcases htouched with ⟨⟨after, hafter⟩, hroot⟩ | rfl | rfl
    · rcases List.append_eq_append_iff.mp hafter with ⟨below, hbelow, -⟩ | ⟨below, rfl, hbelow⟩
      · exact absurd ⟨below, hbelow.symm⟩ hroot
      · cases below with
        | nil => exact absurd (by simp) hroot
        | cons first more =>
          refine ⟨first, more, rfl, ?_⟩
          rintro rfl
          exact hout (by rw [hbelow]; rfl)
    · cases out with
      | nil => exact ⟨reportFileName, [], rfl, by decide⟩
      | cons first more =>
        refine ⟨first, more ++ [reportFileName], rfl, ?_⟩
        rintro rfl
        exact hout rfl
    · exact ⟨ignoreFileName, [], rfl, by decide⟩
  rw [List.prefix_append_right_inj, List.prefix_append_right_inj, List.cons_prefix_cons,
    List.cons_prefix_cons]
  exact ⟨fun hp => hfirst hp.1, fun hp => hfirst hp.1.symm⟩

/-- A path among the installed packages leads to the location of its names. -/
theorem eq_of_find_packages (h : Rewritten w tree' root out) {path : String} {rest p : Location}
    (hway : w.way path = root ++ packageFolder :: rest) (hrest : ∀ name ∈ rest, IsName name)
    (hp : w.find true path = .ok p) : p = root ++ packageFolder :: rest := by
  have hnames : ∀ name ∈ packageFolder :: rest, IsName name :=
    List.forall_mem_cons.mpr ⟨by decide, hrest⟩
  rw [← hway]
  refine eq_way_of_find h.plain.noLink ?_ hp
  rw [hway]
  intro name hname
  rcases List.mem_append.mp hname with hname | hname
  · exact h.names name (List.mem_append_left out hname)
  · exact hnames name hname

/-- A path among the installed packages is looked up alike. -/
theorem find_packages_eq (h : Rewritten w tree' root out) (hout : out.head? ≠ some packageFolder)
    {path : String} {rest : Location} (hway : w.way path = root ++ packageFolder :: rest)
    (hrest : ∀ name ∈ rest, IsName name) :
    find { w with tree := tree' } true path = w.find true path ∧
      look { w with tree := tree' } path = w.look path := by
  have hnames : ∀ name ∈ packageFolder :: rest, IsName name :=
    List.forall_mem_cons.mpr ⟨by decide, hrest⟩
  have hfind := h.find_eq hway hnames (by
    intro before name after hsplit hne
    obtain ⟨first, more, rfl⟩ := List.exists_cons_of_ne_nil hne
    rw [List.cons_append] at hsplit
    obtain ⟨rfl, -⟩ := List.cons.inj hsplit
    rw [h.get?_packages hout]) true
  refine ⟨hfind, ?_⟩
  have hentry := entry_congr hfind fun p hp => by
    rw [h.eq_of_find_packages hway hrest hp, h.get?_packages hout]
  unfold look
  rw [hentry]

theorem folderSize_eq (h : Rewritten w tree' root out) (hout : out.head? ≠ some packageFolder)
    {path : String} {rest : Location} (hway : w.way path = root ++ packageFolder :: rest)
    (hrest : ∀ name ∈ rest, IsName name) :
    folderSize { w with tree := tree' } path = folderSize w path := by
  refine folderSize_congr h.plain h.plain' (h.find_packages_eq hout hway hrest).1 fun p hp => ?_
  intro below
  rw [h.eq_of_find_packages hway hrest hp, List.append_assoc, List.cons_append,
    h.get?_packages hout]

/-- The installed packages of a manifest have the same size, if the report is not among them and no
name leaves their folder. -/
theorem installedSize_eq (h : Rewritten w tree' root out) (hout : out.head? ≠ some packageFolder)
    {path : String} (hway : w.way path = root) (manifest : Option Manifest)
    (hlocal : ∀ m, manifest = some m → ∀ name ∈ m.dependencies.keys, IsLocal name) :
    installedSize { w with tree := tree' } path manifest = installedSize w path manifest := by
  cases manifest with
  | none => rfl
  | some m =>
    have hpackages : w.way (under path packageFolder) = root ++ [packageFolder] := by
      rw [way_under_name w path (by decide), hway]
    have hfolder : Workspace.isFolder { w with tree := tree' } (under path packageFolder) =
        w.isFolder (under path packageFolder) := by
      unfold Workspace.isFolder
      rw [(h.find_packages_eq hout hpackages (by simp)).2]
    have hsizes : m.dependencies.keys.mapM (fun name =>
          folderSize { w with tree := tree' } (under (under path packageFolder) name)) =
        m.dependencies.keys.mapM fun name =>
          folderSize w (under (under path packageFolder) name) := by
      apply mapM_congr
      intro name hname
      obtain ⟨hrelative, hnames⟩ := hlocal m rfl name hname
      refine h.folderSize_eq hout ?_ hnames
      rw [way_under w _ hrelative, hpackages, List.append_assoc, List.singleton_append]
    unfold installedSize
    dsimp only
    rw [hfolder, hsizes]

end Rewritten

end Project

end ScriptHealth
