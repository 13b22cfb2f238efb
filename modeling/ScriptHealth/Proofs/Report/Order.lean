import ScriptHealth.Proofs.Analysis.Totals
import ScriptHealth.Proofs.Graph.Closure
import ScriptHealth.Proofs.Package.Usage
import ScriptHealth.Proofs.Report.Security
import ScriptHealth.Proofs.Score.Whole

/-!
# The order of the inputs leaves no trace in the score

Files, declared packages, hotspots and findings reach the score in some order: that of the listing,
of the manifest, of the history and of the audit. The score reads counts off them, and counts do not
see an order, as long as no file is cut off the graph. A cut of the edges does no harm: it leaves
another choice of edges, but as many of them.

Two runs are compared stage by stage. Each file is analysed in the same way in both, because its
imports are resolved against the set of all paths; so the two lists of analyses are the same up to
their order, and what the score reads off them is the same.

## Main definitions

* `Signals.Reordered` — signals with equal counts, hotspots and findings in another order

## Main results

* `Breakdown.of_reordered` — reordered signals have the same deductions
* `Report.signalsOf_reordered` — reordered inputs have reordered signals
* `score_independent_of_order` — the score and the deductions of reordered inputs
-/

namespace ScriptHealth

open Number Outcome

/-! ### Reordered signals -/

/-- Signals with equal counts; hotspots and findings may be listed in another order. -/
structure Signals.Reordered (s s' : Signals) : Prop where
  files : s.files = s'.files
  lines : s.lines = s'.lines
  codeLines : s.codeLines = s'.codeLines
  commentLines : s.commentLines = s'.commentLines
  hotspots : s.hotspots.Perm s'.hotspots
  nodes : s.nodes = s'.nodes
  edges : s.edges = s'.edges
  unused : s.unused = s'.unused
  findings : s.findings.Perm s'.findings

namespace Breakdown

/-- Reordered signals have the same deductions, or fail in the same way. -/
theorem of_reordered {s s' : Signals} (h : s.Reordered s') (w : Weights) :
    Breakdown.of s w = Breakdown.of s' w := by
  have hactive : s.activeHotspots w = s'.activeHotspots w := h.hotspots.countP_eq _
  have hload : securityLoad w s.findings = securityLoad w s'.findings := by
    have hcount (severity : Severity) :
        Finding.count severity s.findings = Finding.count severity s'.findings :=
      h.findings.countP_eq _
    simp only [securityLoad, hcount]
  have hcoupled : s.tooCoupled w = s'.tooCoupled w := by
    simp only [Signals.tooCoupled, Signals.couplingRatio, h.edges, h.nodes]
  have hfew : s.tooFewComments w = s'.tooFewComments w := by
    simp only [Signals.tooFewComments, Signals.commentRatio?, h.codeLines, h.commentLines]
  simp only [Breakdown.of, ofComparisons, hactive, hload, hcoupled, hfew, h.files, h.lines,
    h.unused]

end Breakdown

/-! ### Reordered files -/

section Reordered

variable (f : SourceFile → FileAnalysis) {sources sources' : List SourceFile}

open scoped Number.Plain in
/-- The totals of the lines do not depend on the order of the files. -/
theorem ProjectStats.sum_lines_perm (h : sources.Perm sources') (count : LineCount → Nat) :
    ((((sources.zip (sources.map f)).filterMap fun p => fileOf p.1 p.2).map
        fun p => count p.lines).sum : Nat) =
      (((sources'.zip (sources'.map f)).filterMap fun p => fileOf p.1 p.2).map
        fun p => count p.lines).sum := by
  rw [filterMap_fileOf_zip, filterMap_fileOf_zip]
  exact ((h.filterMap _).map _).sum_nat

/-- All edges of the graph, up to their order. -/
theorem DependencyGraph.allEdges_perm (h : sources.Perm sources') :
    (allEdges (SourceAnalysis.localImports (sources.map f))).Perm
      (allEdges (SourceAnalysis.localImports (sources'.map f))) :=
  ((h.map f).map _).flatMap_right _

/-- A cap keeps as many items of a list in another order. -/
theorem length_capped {α β : Type} (cap : Int) {xs : List α} {ys : List β}
    (h : xs.length = ys.length) : (capped cap xs).length = (capped cap ys).length := by
  unfold capped
  split
  · rw [List.length_take, List.length_take, h]
  · rw [List.length_take, List.length_take, h]

/-- When no node is cut, the graph has as many nodes and edges in every order of the files. -/
theorem DependencyGraph.length_build (h : sources.Perm sources') {maxNodes : Int}
    (huncut : sources.length ≤ maxNodes) (maxEdges : Int) :
    let build (sources : List SourceFile) := DependencyGraph.build (sources.map (·.path))
      (SourceAnalysis.localImports (sources.map f)) maxNodes maxEdges
    (build sources).nodes.length = (build sources').nodes.length ∧
      (build sources).edges.length = (build sources').edges.length := by
  have hlength := h.length_eq
  have hall {files : List SourceFile} (hfiles : files.length ≤ maxNodes) (kept : List String)
      (edges : List Edge) :
      edgesWithin ((files.map (·.path)).map slashed).length maxNodes kept edges = edges := by
    rw [edgesWithin, if_neg]
    simpa using hfiles
  constructor
  · exact length_capped maxNodes (by simp [hlength])
  · simp only [DependencyGraph.build]
    rw [hall huncut, hall (hlength ▸ huncut)]
    exact length_capped maxEdges (allEdges_perm f h).length_eq

end Reordered

/-! ### Reordered reports -/

section Inputs

variable {sources sources' : List SourceFile} {manifest manifest' : Option Manifest}
  {hotspots hotspots' : List Hotspot} {audit audit' : List Finding}

/-- Analyses of reordered files, merged without cutting a node, give reordered signals. -/
theorem Report.signalsOf_reordered (f : SourceFile → FileAnalysis)
    (hsources : sources.Perm sources')
    (hmanifest : Option.Rel Manifest.Reordered manifest manifest')
    (hhotspots : hotspots.Perm hotspots') (haudit : audit.Perm audit') {maxNodes : Int}
    (huncut : sources.length ≤ maxNodes) (maxEdges : Int) :
    (signalsOf (SourceAnalysis.merge sources (sources.map f) manifest maxNodes maxEdges)
        hotspots audit).Reordered
      (signalsOf (SourceAnalysis.merge sources' (sources'.map f) manifest' maxNodes maxEdges)
        hotspots' audit') := by
  have hgraph := DependencyGraph.length_build f hsources huncut maxEdges
  have hanalyses := hsources.map f
  exact {
    files := hsources.length_eq
    lines := ProjectStats.sum_lines_perm f hsources (·.total)
    codeLines := ProjectStats.sum_lines_perm f hsources (·.code)
    commentLines := ProjectStats.sum_lines_perm f hsources (·.comment)
    hotspots := hhotspots
    nodes := hgraph.1
    edges := hgraph.2
    unused := by
      cases hmanifest with
      | none => rfl
      | some hm =>
        exact PackageUsage.length_unused_reordered hm fun s =>
          (hanalyses.flatMap_right (·.externalImports)).mem_iff
    findings := by
      have hall := haudit.append (hanalyses.flatMap_right (·.findings))
      exact ((List.mergeSort_perm _ _).trans hall).trans (List.mergeSort_perm _ _).symm
  }

/-- An analysis under whole caps, with the analyses of the files one by one. -/
theorem SourceAnalysis.of_eq_merge (parse : ScriptParser) {config : Config}
    {maxNodes maxEdges : Int} (hnodes : Config.cap config.maxNodes = .ok maxNodes)
    (hedges : Config.cap config.maxEdges = .ok maxEdges) (sources : List SourceFile)
    (manifest : Option Manifest) :
    SourceAnalysis.of parse config sources manifest =
      .ok (merge sources (sources.map (FileAnalysis.ofSource parse (isProjectFile sources)))
        manifest maxNodes maxEdges) :=
  SourceAnalysis.ofIn_eq_merge parse (isSchedule_range sources) hnodes hedges manifest

/-- A report is made exactly if there is a score, and it has that score. -/
theorem Report.map_score_assemble (projectName timestamp : String) (analysis : SourceAnalysis)
    (hotspots : List Hotspot) (audit : List Finding) (performance : Performance)
    (weights : Weights) :
    (Report.assemble projectName timestamp analysis hotspots audit performance weights).map
      (·.score) = healthScore (Report.signalsOf analysis hotspots audit) weights := by
  unfold Report.assemble
  cases healthScore (Report.signalsOf analysis hotspots audit) weights with
  | error fault => rfl
  | ok score => rfl

/-- **Order leaves no trace in the score.** If no file is cut off the graph, then reordering the
files, the declared packages, the hotspots and the findings of the audit changes neither a deduction
nor the score, for all weights and whatever the cap on the edges cuts. With whole weights and ratios
in range both scores exist. -/
theorem score_independent_of_order (parse : ScriptParser) (config : Config)
    (hsources : sources.Perm sources')
    (hmanifest : Option.Rel Manifest.Reordered manifest manifest')
    (hhotspots : hotspots.Perm hotspots') (haudit : audit.Perm audit') {maxNodes maxEdges : Int}
    (hnodes : Config.cap config.maxNodes = .ok maxNodes)
    (hedges : Config.cap config.maxEdges = .ok maxEdges) (huncut : sources.length ≤ maxNodes)
    (weights : Weights) :
    ∃ analysis analysis', SourceAnalysis.of parse config sources manifest = .ok analysis ∧
      SourceAnalysis.of parse config sources' manifest' = .ok analysis' ∧
      Breakdown.of (Report.signalsOf analysis hotspots audit) weights =
        Breakdown.of (Report.signalsOf analysis' hotspots' audit') weights ∧
      (∀ name timestamp performance name' timestamp' performance',
        (Report.assemble name timestamp analysis hotspots audit performance weights).map (·.score) =
          (Report.assemble name' timestamp' analysis' hotspots' audit' performance' weights).map
            (·.score)) ∧
      (weights.Integral → analysis.graph.edges.length < ratioBound →
        analysis.stats.commentLines < ratioBound →
        ∃ breakdown score, Breakdown.of (Report.signalsOf analysis hotspots audit) weights =
            .ok breakdown ∧ breakdown.score = .ok score ∧
          ∀ name timestamp performance,
            (Report.assemble name timestamp analysis hotspots audit performance weights).map
              (·.score) = .ok score) := by
  -- both projects have the same paths, so a file is analysed in the same way in both
  have hfile : isProjectFile sources' = isProjectFile sources :=
    isProjectFile_congr fun p => (hsources.map (·.path)).mem_iff.symm
  have hsame := Report.signalsOf_reordered
    (FileAnalysis.ofSource parse (isProjectFile sources)) hsources hmanifest hhotspots haudit huncut
    maxEdges
  refine ⟨_, _, SourceAnalysis.of_eq_merge parse hnodes hedges sources manifest,
    SourceAnalysis.of_eq_merge parse hnodes hedges sources' manifest', ?_, ?_, ?_⟩
  · rw [hfile]
    exact Breakdown.of_reordered hsame weights
  · intro name timestamp performance name' timestamp' performance'
    rw [Report.map_score_assemble, Report.map_score_assemble, hfile, healthScore, healthScore,
      Breakdown.of_reordered hsame weights]
  · intro hw hedgeCount hcomments
    obtain ⟨b, hb, hwhole⟩ := Breakdown.exists_of_integral (w := weights)
      (s := Report.signalsOf _ hotspots audit) hw hedgeCount hcomments
    obtain ⟨n, hn⟩ := hwhole.exists_score
    refine ⟨b, n, hb, hn, fun name timestamp performance => ?_⟩
    rw [Report.map_score_assemble]
    exact bind_eq_ok.mpr ⟨b, hb, hn⟩

end Inputs

/-- Two files that import each other. -/
def mutualSources : List SourceFile :=
  [⟨"a.js", 12, some "import './b'"⟩, ⟨"b.js", 12, some "import './a'"⟩]

/-- Two packages of which none is imported. -/
def idleManifest : Manifest := { dependencies := [("left-pad", "*"), ("moment", "^2.0.0")] }

/-- The same packages, declared the other way round. -/
def idleManifestBackwards : Manifest :=
  { dependencies := [("moment", "^2.0.0"), ("left-pad", "*")] }

/-- Only one edge is kept, and it is another one when the files are listed the other way round. The
deductions are the same. -/
theorem score_independent_of_order_mutualSources :
    ∃ analysis analysis',
      SourceAnalysis.of Script.parse { maxNodes := .int 2, maxEdges := .int 1 } mutualSources
          (some idleManifest) = .ok analysis ∧
        SourceAnalysis.of Script.parse { maxNodes := .int 2, maxEdges := .int 1 }
          mutualSources.reverse (some idleManifestBackwards) = .ok analysis' ∧
        analysis.graph.edges = [⟨"a.js", "b.js"⟩] ∧ analysis'.graph.edges = [⟨"b.js", "a.js"⟩] ∧
        Breakdown.of (Report.signalsOf analysis [⟨"a.js", 20⟩, ⟨"b.js", 3⟩] sampleAudits) {} =
          Breakdown.of
            (Report.signalsOf analysis' [⟨"b.js", 3⟩, ⟨"a.js", 20⟩] sampleAudits.reverse) {} := by
  have hmanifest : idleManifest.Reordered idleManifestBackwards :=
    ⟨List.Perm.swap _ _ [], List.Perm.refl _⟩
  obtain ⟨analysis, analysis', hof, hof', hsame, -⟩ := score_independent_of_order Script.parse
    { maxNodes := .int 2, maxEdges := .int 1 } (List.reverse_perm mutualSources).symm
    (.some hmanifest) (List.Perm.swap ⟨"b.js", 3⟩ ⟨"a.js", 20⟩ [])
    (List.reverse_perm sampleAudits).symm rfl rfl (by decide) {}
  refine ⟨analysis, analysis', hof, hof', ?_, ?_, hsame⟩
  · rw [SourceAnalysis.of_eq_merge Script.parse rfl rfl] at hof
    cases hof
    decide +kernel
  · rw [SourceAnalysis.of_eq_merge Script.parse rfl rfl] at hof'
    cases hof'
    decide +kernel

end ScriptHealth
