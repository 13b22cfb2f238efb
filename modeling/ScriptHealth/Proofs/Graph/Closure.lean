import ScriptHealth.Proofs.Analysis.Schedule
import ScriptHealth.Proofs.Source.Path

/-!
# The graph of a project is closed

Building a graph drops edges with a lost end only when nodes were cut. This file shows that it
would make no difference to drop them always: what a file names resolves to a file of the project,
and it does so under a spelling without backslashes, which is the spelling of a node. So every edge
of the graph of a project joins two of its nodes, under every pair of caps.

## Main definitions

* `SourceFile.targets` — the files that a file imports, in the order of its imports
* `DependencyGraph.importPairs` — all imports of a project as edges

## Main results

* `DependencyGraph.edgesWithin_eq_filter` — for edges between nodes, cutting the nodes keeps the
  edges that kept both ends, also when nothing is cut
* `graph_closed_under_caps` — the graph of a project in terms of its imports
-/

namespace ScriptHealth

/-- The project files that a file imports, in the order of its imports. An unreadable file and a
file without a tree import nothing. -/
def SourceFile.targets (parse : ScriptParser) (isFile : String → Bool) (s : SourceFile) :
    List String :=
  match s.text.bind (parse.treeOf? s.path) with
  | some tree =>
    ((Script.imports tree).filter Specifier.isRelative).filterMap fun specifier =>
      Specifier.resolve? specifier s.path isFile
  | none => []

theorem FileAnalysis.localImports_ofSource (parse : ScriptParser) (isFile : String → Bool)
    (s : SourceFile) :
    (FileAnalysis.ofSource parse isFile s).localImports = s.targets parse isFile := by
  unfold FileAnalysis.ofSource SourceFile.targets
  cases s.text with
  | none => rfl
  | some text =>
    dsimp only [Option.bind_some]
    cases parse.treeOf? s.path text with
    | none => simp [FileAnalysis.ofTree]
    | some tree => simp [FileAnalysis.ofTree]

/-- A file imports project files only, and names them without backslashes. -/
theorem SourceFile.mem_targets {parse : ScriptParser} {isFile : String → Bool} {s : SourceFile}
    {target : String} (h : target ∈ s.targets parse isFile) :
    isFile target = true ∧ '\\' ∉ target.toList := by
  unfold SourceFile.targets at h
  split at h
  · obtain ⟨specifier, -, hresolve⟩ := List.mem_filterMap.mp h
    exact Specifier.resolve?_eq_some hresolve
  · exact absurd h List.not_mem_nil

/-- A cap that is not negative keeps that many items from the front. -/
theorem capped_of_nonneg {α : Type} {cap : Int} (h : 0 ≤ cap) (items : List α) :
    capped cap items = items.take cap.toNat := by
  rw [capped, if_neg (Int.not_lt.mpr h)]

/-- Both ends of the edge are among the nodes. -/
def Edge.Within (nodes : List String) (e : Edge) : Prop := e.source ∈ nodes ∧ e.target ∈ nodes

instance (nodes : List String) (e : Edge) : Decidable (e.Within nodes) :=
  inferInstanceAs (Decidable (_ ∧ _))

namespace DependencyGraph

/-- All imports of a project as edges, file by file and within a file import by import. -/
def importPairs (parse : ScriptParser) (sources : List SourceFile) : List Edge :=
  sources.flatMap fun s =>
    (s.targets parse (isProjectFile sources)).map fun target => ⟨slashed s.path, target⟩

/-- The edges that the analyses of a project give are its imports. -/
theorem allEdges_localImports (parse : ScriptParser) (sources : List SourceFile) :
    allEdges (SourceAnalysis.localImports (sources.map
      (FileAnalysis.ofSource parse (isProjectFile sources)))) = importPairs parse sources := by
  unfold allEdges SourceAnalysis.localImports importPairs
  rw [List.map_map, List.flatMap_map]
  simp [FileAnalysis.localImports_ofSource]

/-- A path without backslashes is a node under its own spelling. -/
theorem slashed_eq_self {path : String} (h : '\\' ∉ path.toList) : slashed path = path := by
  rw [slashed, Path.slashes_eq_self h, String.ofList_toList]

/-- Every import of a project joins two of its nodes. -/
theorem within_of_mem_importPairs {parse : ScriptParser} {sources : List SourceFile} {e : Edge}
    (h : e ∈ importPairs parse sources) :
    e.Within ((sources.map (·.path)).map slashed) := by
  obtain ⟨s, hs, h⟩ := List.mem_flatMap.mp h
  obtain ⟨target, htarget, rfl⟩ := List.mem_map.mp h
  have hnode {path : String} (hpath : path ∈ sources.map (·.path)) :
      slashed path ∈ (sources.map (·.path)).map slashed := List.mem_map_of_mem hpath
  refine ⟨hnode (List.mem_map_of_mem hs), ?_⟩
  -- the target is a path of the project, and without backslashes it is its own node
  obtain ⟨hfile, hplain⟩ := SourceFile.mem_targets htarget
  have hproject : target ∈ sources.map (·.path) := by
    simpa [isProjectFile] using hfile
  have := hnode hproject
  rwa [slashed_eq_self hplain] at this

/-- For edges between nodes, cutting the nodes keeps the edges that kept both ends. When nothing is
cut this says that no edge is lost. -/
theorem edgesWithin_eq_filter {nodes : List String} {edges : List Edge} {maxNodes : Int}
    (hcap : 0 ≤ maxNodes) (hclosed : ∀ e ∈ edges, e.Within nodes) :
    edgesWithin nodes.length maxNodes (capped maxNodes nodes) edges =
      edges.filter fun e => e.Within (nodes.take maxNodes.toNat) := by
  rw [capped_of_nonneg hcap, edgesWithin]
  split
  · apply List.filter_congr
    intro e _
    rw [Bool.eq_iff_iff, decide_eq_true_iff]
    simp [Edge.Within]
  · -- no node was cut, and no edge had an end outside
    rename_i hall
    have htake : nodes.take maxNodes.toNat = nodes := List.take_of_length_le (by omega)
    rw [htake, List.filter_eq_self.mpr]
    intro e he
    exact decide_eq_true (hclosed e he)

/-- The graph that is built from the analyses of a project, under caps that are not negative. -/
theorem build_localImports (parse : ScriptParser) (sources : List SourceFile)
    (maxNodes maxEdges : Int) (hnodes : 0 ≤ maxNodes) (hedges : 0 ≤ maxEdges) :
    build (sources.map (·.path)) (SourceAnalysis.localImports
      (sources.map (FileAnalysis.ofSource parse (isProjectFile sources)))) maxNodes maxEdges =
      { nodes := (sources.map fun s => slashed s.path).take maxNodes.toNat
        edges := ((importPairs parse sources).filter fun e =>
          e.Within ((sources.map fun s => slashed s.path).take maxNodes.toNat)).take
            maxEdges.toNat } := by
  have hpaths : (sources.map (·.path)).map slashed = sources.map fun s => slashed s.path :=
    List.map_map
  rw [build, allEdges_localImports,
    edgesWithin_eq_filter hnodes fun e => within_of_mem_importPairs,
    capped_of_nonneg hnodes, capped_of_nonneg hedges, hpaths]

end DependencyGraph

open DependencyGraph in
/-- **The graph of a project is closed.** For all files, texts and trees, and for caps that are at
least one, the nodes are the first paths in their slashed spelling, and the edges are the first of
those imports whose two ends are kept nodes. -/
theorem graph_closed_under_caps (parse : ScriptParser) (config : Config)
    (sources : List SourceFile) (manifest : Option Manifest) (maxNodes maxEdges : Int)
    (hnodes : Config.cap config.maxNodes = .ok maxNodes) (hmaxNodes : 1 ≤ maxNodes)
    (hedges : Config.cap config.maxEdges = .ok maxEdges) (hmaxEdges : 1 ≤ maxEdges) :
    ∃ analysis, SourceAnalysis.of parse config sources manifest = .ok analysis ∧
      analysis.graph.nodes = (sources.map fun s => slashed s.path).take maxNodes.toNat ∧
      analysis.graph.edges =
        ((importPairs parse sources).filter fun e =>
          e.Within ((sources.map fun s => slashed s.path).take maxNodes.toNat)).take
            maxEdges.toNat ∧
      ∀ e ∈ analysis.graph.edges, e.Within analysis.graph.nodes := by
  -- one worker after the other is as good a schedule as any
  have hgraph := build_localImports parse sources maxNodes maxEdges (by omega) (by omega)
  refine ⟨SourceAnalysis.merge sources
    (sources.map (FileAnalysis.ofSource parse (isProjectFile sources))) manifest maxNodes maxEdges,
    ?_, ?_, ?_, ?_⟩
  · rw [SourceAnalysis.of, SourceAnalysis.ofIn, hnodes, hedges,
      analyzeFilesIn_eq_map parse (isSchedule_range sources)]
    rfl
  · rw [SourceAnalysis.merge, hgraph]
  · rw [SourceAnalysis.merge, hgraph]
  · rw [SourceAnalysis.merge, hgraph]
    intro e he
    exact of_decide_eq_true (List.mem_filter.mp (List.mem_of_mem_take he)).2

/-- Three files of which the last, spelled with a backslash, is cut; the first import is that of
the first file. -/
theorem graph_closed_under_caps_two_of_three :
    let config : Config := { maxNodes := .int 2, maxEdges := .switch true }
    let sources : List SourceFile :=
      [⟨"a.js", 1, some "import './b'"⟩, ⟨"b.js", 1, some "import './a'"⟩, ⟨"c\\d.js", 0, none⟩]
    Config.cap config.maxNodes = .ok 2 ∧ Config.cap config.maxEdges = .ok 1 ∧
      ∃ analysis, SourceAnalysis.of Script.parse config sources none = .ok analysis ∧
        analysis.graph = { nodes := ["a.js", "b.js"], edges := [⟨"a.js", "b.js"⟩] } := by
  refine ⟨rfl, rfl, ?_⟩
  obtain ⟨analysis, hof, hnodes, hedges, -⟩ := graph_closed_under_caps Script.parse
    { maxNodes := .int 2, maxEdges := .switch true }
    [⟨"a.js", 1, some "import './b'"⟩, ⟨"b.js", 1, some "import './a'"⟩, ⟨"c\\d.js", 0, none⟩]
    none 2 1 rfl (by decide) rfl (by decide)
  refine ⟨analysis, hof, ?_⟩
  have hn : analysis.graph.nodes = ["a.js", "b.js"] := hnodes.trans (by decide)
  have he : analysis.graph.edges = [⟨"a.js", "b.js"⟩] := hedges.trans (by decide +kernel)
  rw [← hn, ← he]

end ScriptHealth
