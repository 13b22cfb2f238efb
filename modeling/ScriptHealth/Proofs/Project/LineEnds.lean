import ScriptHealth.Proofs.Analysis.Schedule
import ScriptHealth.Proofs.Data.Outcome
import ScriptHealth.Proofs.Report.Order
import ScriptHealth.Proofs.Text.LineEnd
import ScriptHealth.Proofs.Workspace.Way

/-!
# Files with other line ends

Some files of a tree are written with other line ends. Paths lead to the same places, and the files
read from there differ only in their sizes. Nothing that is learned from the files of a project
looks at their sizes, apart from the sizes that it lists.

## Main definitions

* `Workspace.respell` — a workspace whose files have other line ends, each file its own
* `SourceFile.unsized`, `SourceAnalysis.unsized` — a file and an analysis without the sizes

## Main results

* `Workspace.exists_read_respell` — the same files are read, with other line ends
* `SourceAnalysis.map_unsized_ofIn` — sizes go from the files into the list of files and nowhere
  else
* `analysis_independent_of_line_ends` — files, analysis and score do not depend on line ends
-/

namespace ScriptHealth

/-! ### Trees -/

/-- The content of a file with another line end in place of every line feed. -/
def LineEnd.respellContent (e : LineEnd) (content : ByteArray) : ByteArray :=
  ⟨(e.respell content.data.toList).toArray⟩

@[simp] theorem LineEnd.toList_respellContent (e : LineEnd) (content : ByteArray) :
    (e.respellContent content).data.toList = e.respell content.data.toList := rfl

namespace Entry

mutual

/-- A tree whose files have other line ends, each the one that is given for its location. -/
def respell (ends : Location → LineEnd) (here : Location) : Entry → Entry
  | .file content => .file ((ends here).respellContent content)
  | .link target => .link target
  | .closed => .closed
  | .folder es => .folder (respellAll ends here es)

/-- The entries of a folder with other line ends. -/
def respellAll (ends : Location → LineEnd) (here : Location) :
    List (String × Entry) → List (String × Entry)
  | [] => []
  | (name, e) :: rest => (name, respell ends (here ++ [name]) e) :: respellAll ends here rest

end

variable (ends : Location → LineEnd)

theorem get?_respellAll (here : Location) (es : List (String × Entry)) (name : String) :
    OrderedMap.get? name (respellAll ends here es) =
      (OrderedMap.get? name es).map (respell ends (here ++ [name])) := by
  induction es with
  | nil => rfl
  | cons d rest ih =>
    rw [respellAll, OrderedMap.get?_cons, OrderedMap.get?_cons]
    split
    · rename_i hname
      rw [← hname]
      rfl
    · exact ih

/-- The same entries stand at the same locations, with other line ends. -/
theorem get?_respell (tree : Entry) (here place : Location) :
    (tree.respell ends here).get? place = (tree.get? place).map (respell ends (here ++ place)) := by
  induction place generalizing tree here with
  | nil => simp
  | cons name rest ih =>
    have hchild : (tree.respell ends here).child? name =
        (tree.child? name).map (respell ends (here ++ [name])) := by
      cases tree with
      | file _ => simp [respell, child?, entries, OrderedMap.get?]
      | link _ => simp [respell, child?, entries, OrderedMap.get?]
      | closed => simp [respell, child?, entries, OrderedMap.get?]
      | folder es =>
        rw [respell]
        exact get?_respellAll ends here es name
    rw [get?_cons, get?_cons, hchild]
    cases tree.child? name with
    | none => rfl
    | some inner => simpa using ih inner (here ++ [name])

end Entry

namespace Workspace

variable (ends : Location → LineEnd)

/-- A workspace whose files have other line ends. -/
def respell (w : Workspace) : Workspace := { w with tree := w.tree.respell ends [] }

/-- Paths lead to the same locations. -/
theorem followNames_respell (tree : Entry) (follow : Bool) (links : Nat) (here : Location)
    (names : List String) :
    followNames (tree.respell ends []) follow links here names =
      followNames tree follow links here names := by
  -- a link uses up one of the links, every other step one of the names
  induction links using Nat.strongRecOn generalizing here names with
  | ind links ihLinks =>
    induction names generalizing here with
    | nil => rw [followNames, followNames]
    | cons name rest ihNames =>
      rw [followNames, followNames, Entry.get?_respell]
      split
      · exact ihNames here
      · split
        · exact ihNames here.dropLast
        · split
          · rfl
          · cases tree.get? (here ++ [name]) with
            | none => rfl
            | some d =>
              cases d with
              | file _ => simp [Entry.respell]
              | closed => simp [Entry.respell]
              | folder _ => simpa [Entry.respell] using ihNames (here ++ [name])
              | link target =>
                simp only [Option.map_some, Entry.respell]
                split
                · rfl
                · cases links with
                  | zero => rfl
                  | succ n => exact ihLinks n (Nat.lt_succ_self n) _ _

theorem find_respell (w : Workspace) (follow : Bool) (path : String) :
    (w.respell ends).find follow path = w.find follow path := by
  have hnames (names : List String) : followNames (w.respell ends).tree follow linkLimit [] names =
      followNames w.tree follow linkLimit [] names :=
    followNames_respell ends w.tree follow linkLimit [] names
  unfold find
  simp only [hnames]
  rfl

/-- The same files are read, with other line ends. -/
theorem exists_read_respell (w : Workspace) (path : String) :
    ∃ e : LineEnd, (w.respell ends).read path = (w.read path).map e.respellContent := by
  rw [read, read, entry, entry, find_respell]
  cases w.find true path with
  | error f => exact ⟨.lf, rfl⟩
  | ok place =>
    refine ⟨ends place, ?_⟩
    have hget : (w.respell ends).tree.get? place =
        (w.tree.get? place).map (Entry.respell ends place) := w.tree.get?_respell ends [] place
    simp only [Outcome.ok_bind, hget]
    cases w.tree.get? place with
    | none => rfl
    | some d =>
      cases d with
      | file content => simp only [Option.map_some, Entry.respell]; rfl
      | link target => simp only [Option.map_some, Entry.respell]; rfl
      | closed => simp only [Option.map_some, Entry.respell]; rfl
      | folder es => simp only [Option.map_some, Entry.respell]; rfl

end Workspace

/-! ### Sizes -/

/-- A file without its size. -/
def SourceFile.unsized (s : SourceFile) : SourceFile := { s with size := 0 }

/-- A listed file without its size. -/
def ProjectFile.unsized (f : ProjectFile) : ProjectFile := { f with size := 0 }

/-- Totals without the sizes of the files. -/
def ProjectStats.unsized (s : ProjectStats) : ProjectStats :=
  { s with files := s.files.map ProjectFile.unsized }

/-- An analysis without the sizes of the files. -/
def SourceAnalysis.unsized (a : SourceAnalysis) : SourceAnalysis :=
  { a with stats := a.stats.unsized }

/-- The score does not look at sizes. -/
@[simp] theorem Report.signalsOf_unsized (a : SourceAnalysis) (hotspots : List Hotspot)
    (audit : List Finding) : signalsOf a.unsized hotspots audit = signalsOf a hotspots audit := rfl

/-- Tasks that are translated first are done in the same order. -/
theorem Pool.collect_map {α β γ : Type} (order : List Nat) (f : β → γ) (g : α → β)
    (tasks : List α) : collect order f (tasks.map g) = collect order (f ∘ g) tasks := by
  have hsettle : settle f (tasks.map g) = settle (f ∘ g) tasks := by
    funext slots i
    unfold settle
    rw [List.getElem?_map]
    cases tasks[i]? with
    | none => rfl
    | some task => rfl
  rw [collect, collect, hsettle, List.length_map]

theorem analyzeFilesIn_unsized (order : List Nat) (parse : ScriptParser)
    (sources : List SourceFile) :
    analyzeFilesIn order parse (sources.map SourceFile.unsized) =
      analyzeFilesIn order parse sources := by
  have hfiles : isProjectFile (sources.map SourceFile.unsized) = isProjectFile sources := by
    apply isProjectFile_congr
    simp [SourceFile.unsized]
  rw [analyzeFilesIn, Pool.collect_map, hfiles]
  rfl

open scoped Number.Plain in
/-- The sizes of the files are listed and not looked at. -/
theorem ProjectStats.unsized_of (sources : List SourceFile) (analyses : List FileAnalysis) :
    (ProjectStats.of sources analyses).unsized =
      ProjectStats.of (sources.map SourceFile.unsized) analyses := by
  have hfiles : ((sources.map SourceFile.unsized).zip analyses).filterMap
        (fun p => fileOf p.1 p.2) =
      ((sources.zip analyses).filterMap fun p => fileOf p.1 p.2).map ProjectFile.unsized := by
    rw [List.map_filterMap, List.zip_map_left, List.filterMap_map]
    congr 1
    funext p
    simp only [Function.comp_apply, fileOf, Option.map_map]
    rfl
  have hextensions : ((sources.map SourceFile.unsized).zip analyses).map (fun p => p.1.extension) =
      (sources.zip analyses).map fun p => p.1.extension := by
    rw [List.zip_map_left, List.map_map]
    rfl
  simp only [ProjectStats.of, ProjectStats.unsized, hfiles, hextensions, List.length_map,
    List.map_map]
  congr 1
  exact List.map_mergeSort fun _ _ _ _ => rfl

/-- Sizes go from the files into the list of files and nowhere else. -/
theorem SourceAnalysis.map_unsized_ofIn (order : List Nat) (parse : ScriptParser) (config : Config)
    (sources : List SourceFile) (manifest : Option Manifest) :
    (ofIn order parse config sources manifest).map unsized =
      ofIn order parse config (sources.map SourceFile.unsized) manifest := by
  unfold ofIn
  rw [analyzeFilesIn_unsized]
  cases Config.cap config.maxNodes with
  | error f => rfl
  | ok maxNodes =>
    cases Config.cap config.maxEdges with
    | error f => rfl
    | ok maxEdges =>
      simp only [Outcome.ok_bind, merge, ← ProjectStats.unsized_of, List.map_map]
      rfl

/-- Files that differ only in their sizes give analyses that differ only in them. -/
theorem SourceAnalysis.map_unsized_of {sources sources' : List SourceFile}
    (h : sources'.map SourceFile.unsized = sources.map SourceFile.unsized) (parse : ScriptParser)
    (config : Config) (manifest : Option Manifest) :
    (of parse config sources' manifest).map unsized =
      (of parse config sources manifest).map unsized := by
  have hlength : sources'.length = sources.length := by
    simpa using congrArg List.length h
  rw [of, of, map_unsized_ofIn, map_unsized_ofIn, h, hlength]

/-! ### Projects -/

namespace Project

variable (ends : Location → LineEnd) (w : Workspace) (root : String)

/-- A file is loaded with the same path and the same text. -/
theorem map_unsized_loadSource {path : String}
    (hcr : ∀ content, w.readBytes (Workspace.under root path) = .ok content → 13 ∉ content) :
    (loadSource (w.respell ends) root path).map SourceFile.unsized =
      (loadSource w root path).map SourceFile.unsized := by
  obtain ⟨e, he⟩ := w.exists_read_respell ends (Workspace.under root path)
  unfold loadSource
  dsimp only
  rw [he]
  cases hread : w.read (Workspace.under root path) with
  | error f => rfl
  | ok content =>
    have hcontent : 13 ∉ content.data.toList := by
      apply hcr
      rw [Workspace.readBytes, hread]
      rfl
    simp only [Except.map, SourceFile.unsized, LineEnd.toList_respellContent,
      e.sourceText_respell hcontent]

/-- So are all files. -/
theorem map_unsized_loadSources {paths : List String} (workers : Value)
    (hcr : ∀ path ∈ paths, ∀ content,
      w.readBytes (Workspace.under root path) = .ok content → 13 ∉ content) :
    (loadSources (w.respell ends) root paths workers).map (·.map SourceFile.unsized) =
      (loadSources w root paths workers).map (·.map SourceFile.unsized) := by
  rw [loadSources, loadSources]
  cases checkWorkers workers with
  | error f => simp only [bind, Except.bind, Except.map]
  | ok _ =>
    rw [Outcome.ok_bind, Outcome.ok_bind, Outcome.map_mapM, Outcome.map_mapM]
    apply Outcome.mapM_congr
    intro path hpath
    exact map_unsized_loadSource ends w root (hcr path hpath)

/-- A path that leads to a file is loaded with the size and the text of that file. -/
theorem loadSource_of_find {path : String} {place : Location} {content : ByteArray}
    (hfind : w.find true (Workspace.under root path) = .ok place)
    (hget : w.tree.get? place = some (.file content)) :
    loadSource w root path = .ok {
      path := String.ofList (Path.slashes path.toList)
      size := content.size
      text := some (sourceText content.data.toList) } := by
  have hread : w.read (Workspace.under root path) = .ok content := by
    rw [Workspace.read, Workspace.entry_of_find hfind, hget]
    rfl
  unfold loadSource
  dsimp only
  rw [hread]

end Project

open Project in
/-- **Line ends leave no trace in the analysis.** Files without a carriage return may be written
with other line ends, each with its own: they are loaded with the same paths and texts, and under
every parser, configuration and manifest the analyses of the loaded files agree in everything but
the listed sizes. So the score is the same, whatever the audit and the history add to it. -/
theorem analysis_independent_of_line_ends (w : Workspace) (ends : Location → LineEnd)
    (root : String) (paths : List String) (workers : Value)
    (hcr : ∀ path ∈ paths, ∀ content,
      w.readBytes (Workspace.under root path) = .ok content → 13 ∉ content) :
    (loadSources (w.respell ends) root paths workers).map (·.map SourceFile.unsized) =
        (loadSources w root paths workers).map (·.map SourceFile.unsized) ∧
      ∀ sources sources', loadSources w root paths workers = .ok sources →
        loadSources (w.respell ends) root paths workers = .ok sources' →
        ∀ parse config manifest,
          (SourceAnalysis.of parse config sources' manifest).map SourceAnalysis.unsized =
              (SourceAnalysis.of parse config sources manifest).map SourceAnalysis.unsized ∧
            ∀ hotspots audit weights,
              (SourceAnalysis.of parse config sources' manifest).bind
                  (fun a => healthScore (Report.signalsOf a hotspots audit) weights) =
                (SourceAnalysis.of parse config sources manifest).bind
                  fun a => healthScore (Report.signalsOf a hotspots audit) weights := by
  have hload := map_unsized_loadSources ends w root workers hcr
  refine ⟨hload, ?_⟩
  intro sources sources' hsources hsources' parse config manifest
  rw [hsources, hsources'] at hload
  have hunsized : sources'.map SourceFile.unsized = sources.map SourceFile.unsized :=
    Except.ok.inj hload
  have hanalysis := SourceAnalysis.map_unsized_of hunsized parse config manifest
  refine ⟨hanalysis, ?_⟩
  intro hotspots audit weights
  -- the score of an analysis is that of the analysis without its sizes
  have hscore (x : Except Fault SourceAnalysis) :
      (x.bind fun a => healthScore (Report.signalsOf a hotspots audit) weights) =
        (x.map SourceAnalysis.unsized).bind
          fun a => healthScore (Report.signalsOf a hotspots audit) weights := by
    cases x with
    | error f => rfl
    | ok a => rfl
  rw [hscore, hanalysis, ← hscore]

/-- Two files with a sequence that is broken off right before a line feed. -/
def truncatedFiles : Workspace where
  tree := .folder [
    ("a.js", .file ⟨#[0x2F, 0x2F, 0x20, 0xE2, 0x82, 10, 0x78, 10]⟩),
    ("b.js", .file ⟨#[0xF0, 10]⟩)]

/-- The first file with both characters at its line ends, all others with carriage returns. -/
def mixedEnds (place : Location) : LineEnd := if place = ["a.js"] then .crlf else .cr

theorem find_truncatedFiles :
    ∀ name ∈ ["a.js", "b.js"],
      truncatedFiles.find true (Workspace.under "/" name) = .ok [name] := by
  intro name hmem
  have hplain : truncatedFiles.tree.IsPlain := by
    refine Entry.isPlain_folder (by decide) (by decide) ?_
    simp [Entry.isPlain_file]
  have hway : ∀ name ∈ ["a.js", "b.js"],
      truncatedFiles.way (Workspace.under "/" name) = [name] ∧ Location.IsName name ∧
        name.utf8ByteSize ≤ Workspace.nameLimit ∧
        '\x00' ∉ (truncatedFiles.absolute (Workspace.under "/" name)).toList ∧
        Workspace.under "/" name ≠ "" ∧
        (Workspace.under "/" name).utf8ByteSize ≤ Workspace.pathLimit := by
    decide +kernel
  obtain ⟨hway, hname, hlimit, hnul, hempty, hsize⟩ := hway name hmem
  rw [← hway]
  refine Workspace.find_of_folder hplain.noLink ?_ hnul hempty hsize ?_
  · simpa [hway] using ⟨hname, hlimit⟩
  · rw [hway]
    exact ⟨_, rfl⟩

/-- The sources in those files, when they have the given sizes. -/
def truncatedSources (first second : Nat) : List SourceFile :=
  [{ path := "a.js", size := first, text := some "// \uFFFD\nx\n" },
    { path := "b.js", size := second, text := some "\uFFFD\n" }]

open Project in
theorem analysis_independent_of_line_ends_truncatedFiles :
    (∀ path ∈ ["a.js", "b.js"], ∀ content,
      truncatedFiles.readBytes (Workspace.under "/" path) = .ok content → 13 ∉ content) ∧
      loadSources truncatedFiles "/" ["a.js", "b.js"] .null = .ok (truncatedSources 8 2) ∧
      loadSources (truncatedFiles.respell mixedEnds) "/" ["a.js", "b.js"] .null =
        .ok (truncatedSources 10 2) ∧
      (SourceAnalysis.of Script.parse {} (truncatedSources 10 2) none).map SourceAnalysis.unsized =
        (SourceAnalysis.of Script.parse {} (truncatedSources 8 2) none).map
          SourceAnalysis.unsized := by
  have hcr : ∀ path ∈ ["a.js", "b.js"], ∀ content,
      truncatedFiles.readBytes (Workspace.under "/" path) = .ok content → 13 ∉ content := by
    intro path hpath content hcontent
    rw [Workspace.readBytes, Workspace.read,
      Workspace.entry_of_find (find_truncatedFiles path hpath)]
      at hcontent
    simp only [List.mem_cons, List.not_mem_nil, or_false] at hpath
    rcases hpath with rfl | rfl
    · cases hcontent
      decide
    · cases hcontent
      decide
  have hfirst := find_truncatedFiles "a.js" (by decide)
  have hsecond := find_truncatedFiles "b.js" (by decide)
  have hsources : loadSources truncatedFiles "/" ["a.js", "b.js"] .null =
      .ok (truncatedSources 8 2) := by
    rw [loadSources, List.mapM_cons, List.mapM_cons, loadSource_of_find _ _ hfirst rfl,
      loadSource_of_find _ _ hsecond rfl]
    exact congrArg Except.ok (by decide +kernel)
  rw [← Workspace.find_respell mixedEnds] at hfirst hsecond
  have hsources' : loadSources (truncatedFiles.respell mixedEnds) "/" ["a.js", "b.js"] .null =
      .ok (truncatedSources 10 2) := by
    rw [loadSources, List.mapM_cons, List.mapM_cons, loadSource_of_find _ _ hfirst rfl,
      loadSource_of_find _ _ hsecond rfl]
    exact congrArg Except.ok (by decide +kernel)
  have hends := analysis_independent_of_line_ends truncatedFiles mixedEnds "/" _ .null hcr
  exact ⟨hcr, hsources, hsources', (hends.2 _ _ hsources hsources' Script.parse {} none).1⟩

end ScriptHealth
