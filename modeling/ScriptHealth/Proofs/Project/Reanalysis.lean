import ScriptHealth.Proofs.Data.Logged
import ScriptHealth.Proofs.Project.Rereading
import ScriptHealth.Proofs.Source.Path

/-!
# Analysing a project again

A report is written below the project that it is about, so the next analysis might find it. Whether
it does depends on the selection, and on the length of its path, since no analysis asks for the
folder to which reports are written. If the report is not listed, both analyses read the same and
give the same; if it is, the second one counts a file more. From the listing on an analysis only adds
to the log, so what it gives does not depend on what the listing has recorded.

## Main results

* `Project.analyze_timestamp` — the time of an analysis shows as its timestamp only
* `Project.exists_result_analyze` — an analysis goes on with the files of its listing
* `Project.appends_analyzeFiles` — from the listing on an analysis only adds to the log
* `Project.Rewritten.analyze_eq` — both analyses give the same if the report is not listed
* `Project.totalFiles_of_listed_report` — the second one counts the report if it is listed
* `analysis_unchanged_unless_report_listed` — both together
* `analysis_changed_by_own_report` — a project that is analysed together with its own report
-/

namespace ScriptHealth

namespace Project

open Workspace Entry Location Outcome

variable {w v : Workspace} {root out place : Location}

/-- The time of an analysis shows in its report as the timestamp, and nowhere else. -/
theorem analyze_timestamp (w : Workspace) (tools : Tools) (timestamp timestamp' path : String)
    (config : Config) :
    (analyze w tools timestamp' path config).result =
      (analyze w tools timestamp path config).result.map fun p =>
        ({ p.1 with timestamp := timestamp' }, p.2) := by
  unfold analyze Logged.result
  refine Logged.bind_map fun root t => ?_
  refine Logged.bind_map fun paths t => ?_
  unfold analyzeFiles
  refine Logged.bind_map fun sources t => ?_
  refine Logged.bind_map fun manifest t => ?_
  refine Logged.bind_map fun analysis t => ?_
  refine Logged.bind_map fun findings t => ?_
  refine Logged.bind_map fun hotspots t => ?_
  refine Logged.bind_map fun installed t => ?_
  refine Logged.bind_map fun performance t => ?_
  unfold Report.assemble
  cases healthScore (Report.signalsOf analysis hotspots findings) config.weights <;> rfl

/-! ### Steps that only add to the log -/

theorem appends_loadManifest (w : Workspace) (path : String) :
    Logged.Appends (loadManifest w path) := by
  unfold loadManifest
  refine (Logged.appends_lift _).bind fun o => ?_
  split
  · split
    · exact Logged.appends_note_pure _ _ _ _ _
    · split
      · exact Logged.appends_lift (.ok _)
      · exact Logged.appends_note_pure _ _ _ _ _
      · exact Logged.appends_lift (.error _)
  · exact Logged.appends_note_pure _ _ _ _ _

theorem appends_auditFindings (command : String) (timeout : Value) (r : RunResult) :
    Logged.Appends (auditFindings command timeout r) := by
  unfold auditFindings
  split
  · exact Logged.appends_note_pure _ _ _ _ _
  · exact Logged.appends_note_pure _ _ _ _ _
  · exact Logged.appends_note_pure _ _ _ _ _
  · dsimp only
    split
    · exact Logged.appends_note_pure _ _ _ _ _
    · split
      · exact Logged.appends_note_pure _ _ _ _ _
      · exact Logged.appends_lift (.error _)
      · exact Logged.appends_note_pure _ _ _ _ _

theorem appends_auditIfAsked (w : Workspace) (path : String) (config : Config) (tools : Tools) :
    Logged.Appends (auditIfAsked w path config tools) := by
  unfold auditIfAsked
  split
  · refine Logged.Appends.bind ?_ fun p => Logged.appends_lift (.ok p.1)
    unfold audit
    refine (Logged.appends_lift _).bind fun auditable => ?_
    split
    · exact Logged.appends_note_pure _ _ _ _ _
    · exact (appends_auditFindings _ _ _).bind fun _ => Logged.appends_lift (.ok _)
  · exact Logged.appends_lift (.ok _)

theorem appends_commitLog (r : RunResult) : Logged.Appends (commitLog r) := by
  unfold commitLog
  split
  · exact Logged.appends_note_pure _ _ _ _ _
  · split
    · exact Logged.appends_note_pure _ _ _ _ _
    · exact Logged.appends_lift (.ok _)

theorem appends_historyIfAsked (path : String) (config : Config) (tools : Tools) :
    Logged.Appends (historyIfAsked path config tools) := by
  unfold historyIfAsked
  split
  · refine Logged.Appends.bind ?_ fun p => Logged.appends_lift (.ok p.1)
    unfold history
    dsimp only
    split
    · exact Logged.appends_note_pure _ _ _ _ _
    · refine (appends_commitLog _).bind fun o => ?_
      split
      · exact Logged.appends_lift (.ok _)
      · exact (Logged.appends_lift _).bind fun _ => Logged.appends_lift (.ok _)
  · exact Logged.appends_lift (.ok _)

theorem appends_analyzeFiles (w : Workspace) (tools : Tools) (timestamp path : String)
    (config : Config) (paths : List String) :
    Logged.Appends (analyzeFiles w tools timestamp path config paths) := by
  unfold analyzeFiles
  refine (Logged.appends_lift _).bind fun sources => ?_
  refine (appends_loadManifest w path).bind fun manifest => ?_
  refine (Logged.appends_lift _).bind fun analysis => ?_
  refine (appends_auditIfAsked w path config tools).bind fun findings => ?_
  refine (appends_historyIfAsked path config tools).bind fun hotspots => ?_
  refine (Logged.appends_lift _).bind fun installed => ?_
  refine (Logged.appends_lift _).bind fun performance => ?_
  exact Logged.appends_lift _

/-! ### The files of an analysis -/

/-- An analysis that succeeds has an open folder as its root, and a selection. -/
theorem exists_of_analyze {tools : Tools} {timestamp path : String} {config : Config}
    (hw : w.tree.IsPlain) (hpath : ∀ name ∈ w.way path, IsName name)
    {result : Report × List Log.Record}
    (h : (analyze w tools timestamp path config).result = .ok result) :
    w.find true (pathOf (w.way path)) = .ok (w.way path) ∧
      (∃ es, w.tree.get? (w.way path) = some (.folder es)) ∧
      ∃ s, selectionOf config = .ok s := by
  obtain ⟨root, t, hroot, h⟩ := Logged.bind_eq_ok h
  rw [realPath_eq hw.noLink hpath] at hroot
  cases hroot
  obtain ⟨paths, t, hpaths, -⟩ := Logged.bind_eq_ok h
  obtain ⟨hopen, hselection⟩ := isOpen_of_listFiles hpaths
  obtain ⟨p, es, hfind, hget⟩ := isOpen_iff.mp hopen
  have hway := way_pathOf w fun name hname => (hpath name hname).1
  have hp : p = w.way path := by
    rw [← hway]
    exact eq_way_of_find hw.noLink (by rwa [hway]) hfind
  rw [hp] at hfind hget
  exact ⟨hfind, ⟨es, hget⟩, hselection⟩

/-- An analysis lists the files of its root and goes on with them. -/
theorem exists_result_analyze (tools : Tools) (timestamp : String) {path root : String}
    {config : Config} {s : Selection} {es : List (String × Entry)}
    (hreal : w.realPath path = .ok root) (hs : selectionOf config = .ok s)
    (hlook : w.look root = .ok (some (.folder es))) :
    ∃ t, listFiles w root (.ok s) [] =
        .ok ((filesBelow w s root (.folder es)).map "/".intercalate, t) ∧
      (analyze w tools timestamp path config).result =
        analyzeFiles w tools timestamp root config
          ((filesBelow w s root (.folder es)).map "/".intercalate) t := by
  obtain ⟨t, ht⟩ := exists_listFiles (s := s) hlook []
  refine ⟨t, ht, ?_⟩
  unfold analyze Logged.result
  rw [hreal, hs]
  exact (Logged.ok_bind (Logged.lift_ok root [])).trans (Logged.ok_bind ht)

/-- An analysis ends if its root cannot be listed. -/
theorem result_analyze_of_error (tools : Tools) (timestamp : String) {path root : String}
    {config : Config} {f : Fault} (hreal : w.realPath path = .ok root)
    (h : listFiles w root (selectionOf config) [] = .error f) :
    (analyze w tools timestamp path config).result = .error f := by
  unfold analyze Logged.result
  rw [hreal]
  exact (Logged.ok_bind (Logged.lift_ok root [])).trans (Logged.error_bind h)

theorem length_loadSources {path : String} {paths : List String} {workers : Value}
    {sources : List SourceFile} (h : loadSources w path paths workers = .ok sources) :
    sources.length = paths.length := by
  obtain ⟨-, -, h⟩ := bind_eq_ok.mp h
  exact (mapM_eq_ok_iff.mp h).length_eq.symm

theorem totalFiles_of_ok {parse : ScriptParser} {config : Config} {sources : List SourceFile}
    {manifest : Option Manifest} {analysis : SourceAnalysis}
    (h : SourceAnalysis.of parse config sources manifest = .ok analysis) :
    analysis.stats.totalFiles = sources.length := by
  obtain ⟨maxNodes, -, h⟩ := bind_eq_ok.mp h
  obtain ⟨maxEdges, -, h⟩ := bind_eq_ok.mp h
  cases h
  rfl

theorem stats_of_assemble {projectName timestamp : String} {analysis : SourceAnalysis}
    {hotspots : List Hotspot} {audit : List Finding} {performance : Performance}
    {weights : Weights} {r : Report}
    (h : Report.assemble projectName timestamp analysis hotspots audit performance weights =
      .ok r) : r.stats = analysis.stats := by
  obtain ⟨score, -, h⟩ := bind_eq_ok.mp h
  cases h
  rfl

/-- A report counts the files that are listed. -/
theorem totalFiles_of_analyze {tools : Tools} {timestamp path : String} {config : Config}
    (hw : w.tree.IsPlain) (hroot : w.way path = root) (hpath : ∀ name ∈ root, IsName name)
    {s : Selection} (hs : selectionOf config = .ok s) {es : List (String × Entry)}
    (hes : w.tree.get? root = some (.folder es)) {r : Report} {logs : List Log.Record}
    (h : (analyze w tools timestamp path config).result = .ok (r, logs)) :
    r.stats.totalFiles = (filesBelow w s (pathOf root) (.folder es)).length := by
  subst hroot
  have hfind := (exists_of_analyze hw hpath h).1
  obtain ⟨t, -, hrun⟩ := exists_result_analyze tools timestamp (realPath_eq hw.noLink hpath) hs
    (look_eq_some_iff.mpr ⟨_, hfind, hes⟩)
  rw [hrun] at h
  obtain ⟨sources, _, hsources, h⟩ := Logged.bind_eq_ok h
  obtain ⟨manifest, _, -, h⟩ := Logged.bind_eq_ok h
  obtain ⟨analysis, _, hanalysis, h⟩ := Logged.bind_eq_ok h
  obtain ⟨findings, _, -, h⟩ := Logged.bind_eq_ok h
  obtain ⟨hotspots, _, -, h⟩ := Logged.bind_eq_ok h
  obtain ⟨installed, _, -, h⟩ := Logged.bind_eq_ok h
  obtain ⟨performance, _, -, h⟩ := Logged.bind_eq_ok h
  rw [stats_of_assemble (Logged.eq_ok_of_lift h), totalFiles_of_ok (Logged.eq_ok_of_lift hanalysis),
    length_loadSources (Logged.eq_ok_of_lift hsources), List.length_map]

namespace Rewritten

variable {tree' : Entry}

/-- From the listed files on, both analyses read the same. -/
theorem analyzeFiles_eq {path : String} (h : Rewritten w tree' root out) {s : Selection}
    (hs : ¬TakesReport s path out) (hout : out.head? ≠ some packageFolder)
    (hway : w.way path = root) {es : List (String × Entry)}
    (hes : w.tree.get? root = some (.folder es))
    (hlocal : ∀ m logs, (loadManifest w path).result = .ok (some m, logs) →
      ∀ name ∈ m.dependencies.keys, IsLocal name) (tools : Tools) (timestamp : String)
    (config : Config) (logs : List Log.Record) :
    analyzeFiles { w with tree := tree' } tools timestamp path config
        ((filesBelow w s path (.folder es)).map "/".intercalate) logs =
      analyzeFiles w tools timestamp path config
        ((filesBelow w s path (.folder es)).map "/".intercalate) logs := by
  unfold analyzeFiles
  -- the two runs go hand in hand: what one step reads is rewritten, and then the step is taken in
  -- both
  rw [h.loadSources_eq hs hway hes]
  refine Logged.bind_congr fun sources t _ => ?_
  rw [h.loadManifest_eq hway]
  refine Logged.bind_congr fun manifest t hmanifest => ?_
  refine Logged.bind_congr fun analysis t _ => ?_
  rw [h.auditIfAsked_eq hway]
  refine Logged.bind_congr fun findings t _ => ?_
  refine Logged.bind_congr fun hotspots t _ => ?_
  rw [h.installedSize_eq hout hway manifest]
  rintro m rfl
  obtain ⟨logs, hlogs⟩ := (appends_loadManifest w path).exists_of_eq_ok hmanifest []
  exact hlocal m logs hlogs

/-- Both analyses give the same, and they leave the same records unless the path of the report's
folder is too long. -/
theorem analyze_eq {path : String} (h : Rewritten w tree' (w.way path) out) {config : Config}
    {s : Selection} (hselection : selectionOf config = .ok s)
    (hs : ¬TakesReport s (pathOf (w.way path)) out) (hout : out.head? ≠ some packageFolder)
    (hfind : w.find true (pathOf (w.way path)) = .ok (w.way path))
    (hlocal : ∀ m logs, (loadManifest w (pathOf (w.way path))).result = .ok (some m, logs) →
      ∀ name ∈ m.dependencies.keys, IsLocal name) {tools : Tools} {timestamp : String}
    {r : Report} {logs : List Log.Record}
    (hfirst : (analyze w tools timestamp path config).result = .ok (r, logs)) :
    ∃ logs', (analyze { w with tree := tree' } tools timestamp path config).result =
        .ok (r, logs') ∧
      ((pathBelow (pathOf (w.way path)) out).utf8ByteSize ≤ pathLimit → logs' = logs) := by
  have hnames : ∀ name ∈ w.way path, IsName name := fun name hname =>
    h.names name (List.mem_append_left out hname)
  have hway : w.way (pathOf (w.way path)) = w.way path :=
    way_pathOf w fun name hname => (hnames name hname).1
  have hreal := realPath_eq h.plain.noLink hnames
  have hreal' : realPath { w with tree := tree' } path = .ok (pathOf (w.way path)) :=
    realPath_eq h.plain'.noLink hnames
  obtain ⟨es, es', hes, hes', hlook, hlook'⟩ := h.exists_look hway hfind
  have hfiles := h.filesBelow_eq hs hes hes'
  obtain ⟨t₁, ht₁, hrun₁⟩ := exists_result_analyze tools timestamp hreal hselection hlook
  obtain ⟨t₂, ht₂, hrun₂⟩ := exists_result_analyze tools timestamp hreal' hselection hlook'
  -- the second analysis lists the same files, so it goes on alike
  rw [hrun₁] at hfirst
  rw [hfiles] at ht₂ hrun₂
  rw [h.analyzeFiles_eq hs hout hway hes hlocal] at hrun₂
  obtain ⟨logs', hsecond⟩ := (appends_analyzeFiles w tools timestamp _ config _).exists_of_eq_ok
    hfirst t₂
  refine ⟨logs', hrun₂.trans hsecond, fun hreached => ?_⟩
  have hlist : listFiles { w with tree := tree' } (pathOf (w.way path)) (.ok s) =
      listFiles w (pathOf (w.way path)) (.ok s) := by
    rw [listFiles_of_open hlook', listFiles_of_open hlook, hfiles,
      h.skippedBelow_eq hreached hes hes']
  rw [hlist, ht₁] at ht₂
  obtain rfl := (Prod.mk.inj (Except.ok.inj ht₂)).2
  exact (Prod.mk.inj (Except.ok.inj (hsecond.symm.trans hfirst))).2

end Rewritten

/-- A new report is counted by the next analysis if the selection lists it. -/
theorem totalFiles_of_listed_report {tools : Tools} {timestamp timestamp' path dir : String}
    {config : Config} (hw : w.tree.IsPlain) (hdir : ¬IsAbsolute dir)
    (hnames : ∀ name ∈ w.way path ++ wayOf dir, IsName name) {s : Selection}
    (hs : selectionOf config = .ok s)
    (hreport : TakesReport s (pathOf (w.way path)) (wayOf dir))
    (hnone : ∀ content, w.tree.get? (w.way path ++ (wayOf dir ++ [reportFileName])) ≠
      some (.file content)) {r r' : Report} {logs logs' : List Log.Record}
    (hfirst : (analyze w tools timestamp path config).result = .ok (r, logs))
    (hwritten : (writeReport w path r (.str dir)).2.isOk = true)
    (hsecond : (analyze (writeReport w path r (.str dir)).1 tools timestamp' path
      config).result = .ok (r', logs')) :
    r'.stats.totalFiles = r.stats.totalFiles + 1 := by
  have hpath : ∀ name ∈ w.way path, IsName name := fun name hname =>
    hnames name (List.mem_append_left _ hname)
  obtain ⟨-, ⟨es, hes⟩, -⟩ := exists_of_analyze hw hpath hfirst
  obtain ⟨tree', hw', h⟩ := Rewritten.of_writeReport hw hdir hnames ⟨es, hes⟩ r
  obtain ⟨es', hes'⟩ := h.isFolder'
  have htop : w.tree.isFolder = true := by
    obtain ⟨top, htop⟩ := exists_folder_of_isPrefix List.nil_prefix ⟨es, hes⟩
    exact isFolder_iff.mpr ⟨top, Option.some.inj htop⟩
  have hfile := get?_of_writeReport hw rfl hdir hnames htop hwritten
  rw [hw'] at hfile hsecond
  -- the listing is the old one with the report besides, and every listed file is counted
  have hlisted := (h.filesBelow_perm_cons hreport hes hes' hnone hfile).length_eq
  have hway : way { w with tree := tree' } path = w.way path := rfl
  rw [totalFiles_of_analyze h.plain' hway hpath hs hes' hsecond, hlisted, List.length_cons,
    totalFiles_of_analyze hw rfl hpath hs hes hfirst]

end Project

/-- **A report and the next analysis.** A project without links is analysed, its report is written
below it, and it is analysed again. If the selection does not list the report and the report is not
among the installed packages, then the second report is the first one with another timestamp, also
if the first one could not be written; the records are the same as well, unless the path of the
report's folder is too long to list it. If the selection lists the report, then a report that is new
is counted by the second analysis. -/
theorem analysis_unchanged_unless_report_listed (w : Workspace) (hw : w.tree.IsPlain)
    (tools : Tools) (timestamp timestamp' path : String)
    (hpath : ∀ name ∈ w.way path, Location.IsName name) (config : Config) {dir : String}
    (hdir : config.outputDir = .str dir) (hlocal : Project.IsLocal dir)
    {r : Report} {logs : List Log.Record}
    (hfirst : (Project.analyze w tools timestamp path config).result = .ok (r, logs)) :
    ∃ s, Project.selectionOf config = .ok s ∧
      (¬Project.TakesReport s (Workspace.pathOf (w.way path)) (Workspace.wayOf dir) →
        (Workspace.wayOf dir).head? ≠ some Workspace.packageFolder →
        (∀ m logs',
          (Project.loadManifest w (Workspace.pathOf (w.way path))).result = .ok (some m, logs') →
            ∀ name ∈ m.dependencies.keys, Project.IsLocal name) →
        ∃ logs', (Project.analyze (Project.writeReport w path r config.outputDir).1 tools timestamp'
            path config).result = .ok ({ r with timestamp := timestamp' }, logs') ∧
          ((Workspace.pathBelow (Workspace.pathOf (w.way path))
            (Workspace.wayOf dir)).utf8ByteSize ≤ Workspace.pathLimit → logs' = logs)) ∧
      (Project.TakesReport s (Workspace.pathOf (w.way path)) (Workspace.wayOf dir) →
        (∀ content, w.tree.get? (w.way path ++ (Workspace.wayOf dir ++ [Project.reportFileName])) ≠
          some (.file content)) →
        (Project.writeReport w path r config.outputDir).2.isOk = true →
        ∀ r' logs', (Project.analyze (Project.writeReport w path r config.outputDir).1 tools
            timestamp' path config).result = .ok (r', logs') →
          r'.stats.totalFiles = r.stats.totalFiles + 1) := by
  obtain ⟨hfind, hroot, s, hs⟩ := Project.exists_of_analyze hw hpath hfirst
  have hnames : ∀ name ∈ w.way path ++ Workspace.wayOf dir, Location.IsName name := by
    intro name hname
    rcases List.mem_append.mp hname with hname | hname
    · exact hpath name hname
    · exact hlocal.2 name hname
  rw [hdir]
  refine ⟨s, hs, ?_, ?_⟩
  · intro hreport hpackages hdependencies
    obtain ⟨tree', hwritten, hrewritten⟩ :=
      Project.Rewritten.of_writeReport hw hlocal.1 hnames hroot r
    obtain ⟨logs', hsecond, hlogs⟩ :=
      hrewritten.analyze_eq hs hreport hpackages hfind hdependencies hfirst
    rw [hwritten, Project.analyze_timestamp _ tools timestamp, hsecond]
    exact ⟨logs', rfl, hlogs⟩
  · intro hreport hnone hwritten r' logs' hsecond
    exact Project.totalFiles_of_listed_report hw hlocal.1 hnames hs hreport hnone hfirst hwritten
      hsecond

namespace Project

open Workspace Entry Location

/-- The paths that are asked for when a project at the top of a tree is analysed and its report is
written to a folder `reports`, with their ways. -/
def topPaths : List (String × Location) :=
  [("/", []), (under "/" Manifest.fileName, [Manifest.fileName]),
   (under "/" Manifest.lockFileName, [Manifest.lockFileName]),
   (under "/" packageFolder, [packageFolder]), (under "/" ignoreFileName, [ignoreFileName]),
   (under "/" "reports", ["reports"]),
   (reportPath "/" "reports", ["reports", reportFileName])]

theorem find_topPaths {tree : Entry} (htree : tree.IsPlain) {path : String} (place : Location)
    (hpath : (path, place) ∈ topPaths)
    (hfolder : ∃ es, tree.get? place.dropLast = some (.folder es)) (follow : Bool) :
    find { tree := tree } follow path = .ok place := by
  have htable : ∀ e ∈ topPaths, way {} e.1 = e.2 ∧
      (∀ name ∈ e.2, IsName name ∧ name.utf8ByteSize ≤ nameLimit) ∧
      '\x00' ∉ (absolute {} e.1).toList ∧ e.1 ≠ "" ∧ e.1.utf8ByteSize ≤ pathLimit := by
    decide +kernel
  obtain ⟨hway, hnames, hnul, hempty, hsize⟩ := htable _ hpath
  replace hway : way { tree := tree } path = place := hway
  rw [← hway]
  refine find_of_folder htree.noLink ?_ hnul hempty hsize ?_
  · rw [hway]
    exact hnames
  · rw [hway]
    exact hfolder

/-- The text of a manifest with one dependency. -/
def sampleManifestText : String := "\x7b\"dependencies\": \x7b\"left-pad\": \"1.3.0\"\x7d\x7d\n"

/-- The manifest with that text. -/
def sampleManifest : Manifest := { dependencies := [("left-pad", "1.3.0")] }

/-- The tree of a project that has a manifest and nothing else. -/
def manifestTree : Entry := .folder [(Manifest.fileName, .file sampleManifestText.toUTF8)]

/-- What is read from the text, as a manifest and as a source. -/
theorem read_sampleManifestText :
    strictText? sampleManifestText.toUTF8.data.toList = some sampleManifestText.toList ∧
      (Json.parse sampleManifestText.toList).toOption.map Manifest.ofValue = some sampleManifest ∧
      sourceText sampleManifestText.toUTF8.data.toList = sampleManifestText := by
  decide +kernel

theorem isPlain_manifestTree : manifestTree.IsPlain := by
  refine isPlain_folder (by decide) (by decide) fun d hd => ?_
  rw [List.mem_singleton.mp hd]
  exact isPlain_file _

theorem way_manifestTree : way { tree := manifestTree } "/" = [] := by decide +kernel

theorem find_manifestTree {path : String} (place : Location) (hpath : (path, place) ∈ topPaths)
    (htop : place.dropLast = []) (follow : Bool) :
    find { tree := manifestTree } follow path = .ok place := by
  refine find_topPaths isPlain_manifestTree place hpath ?_ follow
  rw [htop]
  exact ⟨_, rfl⟩

/-- The report of the project can be written, whatever it says. -/
theorem isOk_writeReport_manifestTree (r : Report) :
    (writeReport { tree := manifestTree } "/" r (.str "reports")).2.isOk = true := by
  obtain ⟨tree, htree⟩ : ∃ tree, manifestTree.put ["reports"] (.folder []) = tree := ⟨_, rfl⟩
  obtain ⟨tree', htree'⟩ :
      ∃ tree', tree.put ["reports", reportFileName] (.file (reportText r).toUTF8) = tree' :=
    ⟨_, rfl⟩
  -- the tree after the folder was made, and then after the report was written
  have hplain : tree.IsPlain := by
    rw [← htree]
    exact isPlain_manifestTree.put (by decide) (isPlain_folder (by decide) (by decide) (by simp))
  have hplain' : tree'.IsPlain := by
    rw [← htree']
    exact hplain.put (by decide) (isPlain_file _)
  have hmade : makeFolders { tree := manifestTree } (under "/" "reports")
      ((under "/" "reports").length + 1) = ({ tree := tree }, none) := by
    unfold makeFolders makeFolder
    rw [find_manifestTree ["reports"] (by simp [topPaths]) rfl, ← htree]
    rfl
  have hwrite : writeText { tree := tree } (reportPath "/" "reports") (reportText r) =
      .ok { tree := tree' } := by
    have hfolder : ∃ es, tree.get? ["reports"] = some (.folder es) := ⟨[], by rw [← htree]; rfl⟩
    unfold writeText write
    rw [find_topPaths hplain ["reports", reportFileName] (by simp [topPaths]) hfolder, ← htree',
      ← htree]
    rfl
  have hignored : look { tree := tree' } (under "/" ignoreFileName) = .ok none := by
    subst htree htree'
    rw [look_of_find (find_topPaths hplain' [ignoreFileName] (by simp [topPaths]) ⟨_, rfl⟩ true)]
    rfl
  unfold writeReport ensureIgnored
  dsimp only
  rw [hmade]
  dsimp only
  rw [hwrite]
  dsimp only
  rw [hignored]
  rfl

theorem look_manifestTree :
    look { tree := manifestTree } (under "/" Manifest.fileName) =
      .ok (some (.file sampleManifestText.toUTF8)) := by
  rw [look_of_find (find_manifestTree [Manifest.fileName] (by simp [topPaths]) rfl true)]
  rfl

theorem loadManifest_manifestTree :
    loadManifest { tree := manifestTree } "/" = pure (some sampleManifest) := by
  obtain ⟨htext, hparse, -⟩ := read_sampleManifestText
  unfold loadManifest
  dsimp only
  rw [look_manifestTree]
  funext logs
  rw [Logged.ok_bind (t := logs) (a := some (.file sampleManifestText.toUTF8)) rfl]
  dsimp only
  rw [htext]
  cases hv : Json.parse sampleManifestText.toList with
  | error f =>
    rw [hv] at hparse
    cases hparse
  | ok v =>
    rw [hv] at hparse
    dsimp only
    rw [hv]
    exact congrArg (fun m => Except.ok (m, logs)) hparse

theorem loadSources_manifestTree :
    loadSources { tree := manifestTree } "/" [Manifest.fileName] .null = .ok [
      { path := Manifest.fileName, size := sampleManifestText.toUTF8.size
        text := some sampleManifestText }] := by
  have hread : read { tree := manifestTree } (under "/" Manifest.fileName) =
      .ok sampleManifestText.toUTF8 := by
    unfold Workspace.read
    rw [entry_of_find (find_manifestTree [Manifest.fileName] (by simp [topPaths]) rfl true)]
    rfl
  have hshown : String.ofList (Path.slashes Manifest.fileName.toList) = Manifest.fileName := by
    rw [Path.slashes_eq_self (by decide), String.ofList_toList]
  have hsource : loadSource { tree := manifestTree } "/" Manifest.fileName = .ok
      { path := Manifest.fileName, size := sampleManifestText.toUTF8.size
        text := some sampleManifestText } := by
    unfold loadSource
    dsimp only
    rw [hread]
    dsimp only
    rw [read_sampleManifestText.2.2, hshown]
  unfold loadSources
  rw [List.mapM_cons, hsource]
  rfl

/-- By default the manifest is listed. A report is not listed in the folder that is meant for it, but
it is in a folder `reports`. -/
theorem selected_by_default {s : Selection} (hs : selectionOf {} = .ok s) :
    s.takesFile Manifest.fileName = true ∧ ¬TakesReport s "/" (wayOf ".moduly") ∧
      TakesReport s "/" (wayOf "reports") := by
  cases hs
  decide +kernel

/-- The analysis of the project succeeds. -/
theorem exists_analyze_manifestTree :
    ∃ r logs, (analyze { tree := manifestTree } {} "" "/" {}).result = .ok (r, logs) := by
  have hreal : realPath { tree := manifestTree } "/" = .ok "/" := by
    rw [realPath_eq isPlain_manifestTree.noLink (by simp [way_manifestTree]), way_manifestTree]
    rfl
  obtain ⟨s, hs⟩ : ∃ s, selectionOf {} = .ok s := ⟨_, rfl⟩
  have hfiles : filesBelow { tree := manifestTree } s "/" manifestTree =
      [[Manifest.fileName]] := by
    have hlimit : ¬pathLimit < "/".utf8ByteSize := by decide
    unfold manifestTree
    simp [filesBelow, hlimit, foldersBelow, byName, countsAsFolder, Entry.isFolder,
      (selected_by_default hs).1]
  have haudit : auditIfAsked { tree := manifestTree } "/" {} {} = (do
      Logged.note .info auditLogger "No lockfile found; skipping dependency audit" []
      return []) := by
    unfold auditIfAsked audit isAuditable Workspace.isFile
    rw [look_manifestTree,
      look_of_find (find_manifestTree [Manifest.lockFileName] (by simp [topPaths]) rfl true)]
    rfl
  have hinstalled : installedSize { tree := manifestTree } "/" (some sampleManifest) = .ok 0 := by
    unfold installedSize Workspace.isFolder
    dsimp only
    rw [look_of_find (find_manifestTree [packageFolder] (by simp [topPaths]) rfl true)]
    rfl
  -- following a path does not reduce, so the lookups are replaced before the rest is computed
  have hok : (analyzeFiles { tree := manifestTree } {} "" "/" {} [Manifest.fileName] []).isOk =
      true := by
    unfold analyzeFiles
    rw [show ({} : Config).workers = .null from rfl,
      loadSources_manifestTree, loadManifest_manifestTree, Logged.ok_bind rfl, Logged.ok_bind rfl,
      haudit, hinstalled]
    decide +kernel
  obtain ⟨t, -, hrun⟩ := exists_result_analyze {} "" hreal hs (look_top manifestTree)
  rw [← manifestTree, hfiles] at hrun
  cases hempty : analyzeFiles { tree := manifestTree } {} "" "/" {} [Manifest.fileName] [] with
  | error f =>
    rw [hempty] at hok
    cases hok
  | ok p =>
    -- what the listing has recorded does not matter
    obtain ⟨logs, hlogs⟩ := (appends_analyzeFiles _ _ _ _ _ _).exists_of_eq_ok hempty t
    exact ⟨p.1, logs, hrun.trans hlogs⟩

/-- The project holds no report. -/
theorem get?_report_manifestTree (content : ByteArray) :
    manifestTree.get? (way { tree := manifestTree } "/" ++ (wayOf "reports" ++ [reportFileName])) ≠
      some (.file content) := by
  rw [way_manifestTree, (wayOf_of_isName (by decide)).1]
  exact nofun

end Project

/-- A report in the default folder is not found again, one in another folder is. -/
theorem analysis_unchanged_unless_report_listed_manifestTree :
    ∃ r logs,
      (Project.analyze { tree := Project.manifestTree } {} "" "/" {}).result = .ok (r, logs) ∧
      (Project.analyze (Project.writeReport { tree := Project.manifestTree } "/" r
        (.str ".moduly")).1 {} "later" "/" {}).result =
          .ok ({ r with timestamp := "later" }, logs) ∧
      ∀ r' logs', (Project.analyze (Project.writeReport { tree := Project.manifestTree } "/" r
          (.str "reports")).1 {} "later" "/" { outputDir := .str "reports" }).result =
            .ok (r', logs') → r'.stats.totalFiles = r.stats.totalFiles + 1 := by
  obtain ⟨r, logs, hfirst⟩ := Project.exists_analyze_manifestTree
  have hpath : ∀ name ∈ Workspace.way { tree := Project.manifestTree } "/",
      Location.IsName name := by
    rw [Project.way_manifestTree]
    exact nofun
  refine ⟨r, logs, hfirst, ?_, ?_⟩
  · obtain ⟨s, hs, hsame, -⟩ := analysis_unchanged_unless_report_listed
      { tree := Project.manifestTree } Project.isPlain_manifestTree {} "" "later" "/" hpath {} rfl
      (Project.isLocal_of_isName (by decide)) hfirst
    have hroot : Workspace.pathOf (Workspace.way { tree := Project.manifestTree } "/") = "/" := by
      rw [Project.way_manifestTree]
      rfl
    rw [hroot] at hsame
    have hpackages : (Workspace.wayOf ".moduly").head? ≠ some Workspace.packageFolder := by
      rw [(Workspace.wayOf_of_isName (by decide)).1]
      decide
    obtain ⟨logs', hsecond, hlogs⟩ := hsame (Project.selected_by_default hs).2.1 hpackages
      fun m logs' hm => by
        rw [Project.loadManifest_manifestTree] at hm
        cases hm
        exact List.forall_mem_singleton.mpr (Project.isLocal_of_isName (by decide))
    rw [hsecond, hlogs (by decide +kernel)]
  · obtain ⟨s, hs, -, hcounted⟩ := analysis_unchanged_unless_report_listed
      { tree := Project.manifestTree } Project.isPlain_manifestTree {} "" "later" "/" hpath
      { outputDir := .str "reports" } rfl (Project.isLocal_of_isName (by decide)) hfirst
    exact hcounted (Project.selected_by_default hs).2.2 Project.get?_report_manifestTree
      (Project.isOk_writeReport_manifestTree r)

/-- With a visible folder for reports, a project is analysed together with its own report. -/
theorem analysis_changed_by_own_report :
    Config.ofSettings [("output_dir", .value (.str "reports"))] =
      .ok { outputDir := .str "reports" } ∧
    ∃ r logs,
      (Project.analyze { tree := Project.manifestTree } {} "" "/"
        { outputDir := .str "reports" }).result = .ok (r, logs) ∧
      ∀ timestamp' logs',
        (Project.analyze (Project.writeReport { tree := Project.manifestTree } "/" r
          (.str "reports")).1 {} timestamp' "/" { outputDir := .str "reports" }).result ≠
            .ok ({ r with timestamp := timestamp' }, logs') := by
  obtain ⟨r, logs, hfirst⟩ := Project.exists_analyze_manifestTree
  obtain ⟨s, hs⟩ : ∃ s, Project.selectionOf { outputDir := .str "reports" } = .ok s := ⟨_, rfl⟩
  refine ⟨rfl, r, logs, hfirst, fun timestamp' logs' hsecond => ?_⟩
  have hnames : ∀ name ∈ Workspace.way { tree := Project.manifestTree } "/" ++
      Workspace.wayOf "reports", Location.IsName name := by
    rw [Project.way_manifestTree, (Workspace.wayOf_of_isName (by decide)).1]
    decide
  have hcounted := Project.totalFiles_of_listed_report Project.isPlain_manifestTree (by decide)
    hnames hs (Project.selected_by_default hs).2.2 Project.get?_report_manifestTree hfirst
    (Project.isOk_writeReport_manifestTree r) hsecond
  exact Nat.succ_ne_self _ hcounted.symm

end ScriptHealth
