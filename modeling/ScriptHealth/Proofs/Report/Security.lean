import ScriptHealth.Proofs.Analysis.Schedule
import ScriptHealth.Proofs.Data.Outcome
import ScriptHealth.Proofs.Data.Sort
import ScriptHealth.Proofs.Score.Whole
import ScriptHealth.Proofs.Script.Walk
import ScriptHealth.Report.Basic

/-!
# The order of the findings in a report

The findings of a report pass four stages: the walk through each tree, the search of each text line
by line, the merge of the files, and the sort by severity together with the findings of the audit.
The sort is stable, so the order that the earlier stages made is the order within each severity.

## Main definitions

* `SourceFile.structuralFindings`, `SourceFile.secretFindings`, `SourceFile.codeFindings` — what is
  found in a file, node by node and line by line
* `Finding.bySeverity` — the findings of the audit and of the code, severity by severity

## Main results

* `Finding.sort_eq_flatMap` — sorted findings are the findings of each severity in turn
* `findings_ofIn` — the findings of an analysis, file by file
* `security_listed_by_severity` — the findings of a report and their numbers
-/

namespace ScriptHealth

open Script
open scoped Number.Plain

namespace Finding

/-! ### Sorted findings -/

theorem before_iff {a b : Finding} : before a b = true ↔ a.severity.rank ≤ b.severity.rank :=
  decide_eq_true_iff

theorem before_trans (a b c : Finding) (hab : before a b = true) (hbc : before b c = true) :
    before a c = true := by
  rw [before_iff] at *
  exact Nat.le_trans hab hbc

theorem before_total (a b : Finding) : (before a b || before b a) = true := by
  rw [Bool.or_eq_true, before_iff, before_iff]
  exact Nat.le_total _ _

/-- Findings in the order of their severity are the findings of each severity in turn. -/
theorem eq_flatMap_of_pairwise {findings : List Finding}
    (h : findings.Pairwise fun a b => before a b = true) :
    findings = Severity.all.flatMap fun s => findings.filter (·.severity == s) := by
  induction findings with
  | nil => rfl
  | cons f fs ih =>
    rw [List.pairwise_cons] at h
    -- nothing behind the first finding is more severe
    have hnone (s : Severity) (hs : s.rank < f.severity.rank) :
        fs.filter (·.severity == s) = [] := by
      rw [List.filter_eq_nil_iff]
      intro g hg hsev
      have hrank := before_iff.mp (h.1 g hg)
      rw [beq_iff_eq.mp hsev] at hrank
      omega
    have hrest := ih h.2
    simp only [Severity.all, List.flatMap_cons, List.flatMap_nil, List.append_nil,
      List.filter_cons] at hrest ⊢
    cases hf : f.severity with
    | critical => simpa using hrest
    | high =>
      rw [hf] at hnone
      simpa [hnone .critical (by decide)] using hrest
    | medium =>
      rw [hf] at hnone
      simpa [hnone .critical (by decide), hnone .high (by decide)] using hrest
    | low =>
      rw [hf] at hnone
      simpa [hnone .critical (by decide), hnone .high (by decide), hnone .medium (by decide)]
        using hrest

/-- Sorting keeps the order of the findings of one severity. -/
theorem filter_sort (findings : List Finding) (s : Severity) :
    (sort findings).filter (·.severity == s) = findings.filter (·.severity == s) := by
  apply Sort.filter_mergeSort before_trans before_total
  intro a b ha hb
  have hsame : a.severity = b.severity := (beq_iff_eq.mp ha).trans (beq_iff_eq.mp hb).symm
  exact before_iff.mpr (Nat.le_of_eq (congrArg Severity.rank hsame))

/-- Sorted findings are the findings of each severity in turn, in the order in which they stood. -/
theorem sort_eq_flatMap (findings : List Finding) :
    sort findings = Severity.all.flatMap fun s => findings.filter (·.severity == s) := by
  have hsorted : (sort findings).Pairwise fun a b => before a b = true :=
    List.pairwise_mergeSort before_trans before_total findings
  have hturn := eq_flatMap_of_pairwise hsorted
  simpa only [filter_sort] using hturn

/-- The findings of the audit and of the code: for each severity in turn, those of the audit and
then those of the code. -/
def bySeverity (audit code : List Finding) : List Finding :=
  Severity.all.flatMap fun s =>
    audit.filter (·.severity == s) ++ code.filter (·.severity == s)

theorem sort_append (audit code : List Finding) : sort (audit ++ code) = bySeverity audit code := by
  simp only [sort_eq_flatMap, bySeverity, List.filter_append]

theorem count_append (s : Severity) (a b : List Finding) :
    count s (a ++ b) = count s a + count s b :=
  List.countP_append

theorem count_flatMap {α : Type} (s : Severity) (items : List α) (f : α → List Finding) :
    count s (items.flatMap f) = (items.map fun x => count s (f x)).sum := by
  induction items with
  | nil => rfl
  | cons x xs ih => rw [List.flatMap_cons, count_append, ih, List.map_cons, List.sum_cons]

/-- Sorting changes no number of findings. -/
theorem count_sort (s : Severity) (findings : List Finding) :
    count s (sort findings) = count s findings :=
  (List.mergeSort_perm findings before).countP_eq _

end Finding

/-! ### Findings of a file -/

/-- Both findings have a line, and the first one stands on an earlier line. -/
def Finding.OnEarlierLine (f g : Finding) : Prop :=
  ∃ i j, f.line = some i ∧ g.line = some j ∧ i < j

/-- The secrets of a text stand in the order of its lines, one on a line at most. -/
theorem pairwise_scanSecrets (text path : String) :
    (scanSecrets text path).Pairwise Finding.OnEarlierLine := by
  unfold scanSecrets
  rw [List.pairwise_filterMap]
  have hindex : (Text.lines text.toList).zipIdx.Pairwise fun a b => a.2 < b.2 := by
    rw [← List.pairwise_map (f := Prod.snd) (R := (· < ·)), List.zipIdx_map_snd]
    exact List.pairwise_lt_range'
  refine hindex.imp fun {a b} hab f hf g hg => ?_
  obtain ⟨p, -, rfl⟩ := Option.map_eq_some_iff.mp hf
  obtain ⟨q, -, rfl⟩ := Option.map_eq_some_iff.mp hg
  exact ⟨a.2 + 1, b.2 + 1, rfl, rfl, Nat.succ_lt_succ hab⟩

namespace SourceFile

/-- The dangerous shapes in the tree of a script, in prefix order. -/
def structuralFindings (parse : ScriptParser) (s : SourceFile) : List Finding :=
  match s.text.bind (parse.treeOf? s.path) with
  | some tree => tree.preorder.flatMap (DangerousShape.findingsAt s.path)
  | none => []

/-- The secrets in a text, in the order of its lines. -/
def secretFindings (s : SourceFile) : List Finding :=
  match s.text with
  | some text => scanSecrets text s.path
  | none => []

/-- What is found in a file: shapes before secrets. -/
def codeFindings (parse : ScriptParser) (s : SourceFile) : List Finding :=
  s.structuralFindings parse ++ s.secretFindings

theorem pairwise_secretFindings (s : SourceFile) :
    s.secretFindings.Pairwise Finding.OnEarlierLine := by
  unfold secretFindings
  split
  · exact pairwise_scanSecrets _ _
  · exact .nil

end SourceFile

theorem FileAnalysis.findings_ofSource (parse : ScriptParser) (isFile : String → Bool)
    (s : SourceFile) :
    (FileAnalysis.ofSource parse isFile s).findings = s.codeFindings parse := by
  unfold FileAnalysis.ofSource SourceFile.codeFindings SourceFile.structuralFindings
    SourceFile.secretFindings
  cases s.text with
  | none => rfl
  | some text =>
    dsimp only [Option.bind_some]
    cases parse.treeOf? s.path text with
    | none => rfl
    | some tree => simp [FileAnalysis.ofTree, scanTree_eq_flatMap]

/-- The findings of an analysis are those of its files, in the order of the files. -/
theorem findings_ofIn {parse : ScriptParser} {config : Config} {sources : List SourceFile}
    {manifest : Option Manifest} {order : List Nat} (horder : IsSchedule order sources)
    {analysis : SourceAnalysis}
    (h : SourceAnalysis.ofIn order parse config sources manifest = .ok analysis) :
    analysis.findings = sources.flatMap (·.codeFindings parse) := by
  obtain ⟨maxNodes, -, h⟩ := Outcome.bind_eq_ok.mp h
  obtain ⟨maxEdges, -, h⟩ := Outcome.bind_eq_ok.mp h
  cases h
  change (analyzeFilesIn order parse sources).flatMap (·.findings) = _
  rw [analyzeFilesIn_eq_map parse horder, List.flatMap_map]
  exact List.flatMap_congr fun s _ => FileAnalysis.findings_ofSource parse _ s

/-! ### Findings of a report -/

theorem Report.securityOf_eq (audit : List Finding) (analysis : SourceAnalysis) :
    Report.securityOf audit analysis = Finding.bySeverity audit analysis.findings :=
  Finding.sort_append audit analysis.findings

/-- A report is made whenever there is a score, and it lists the sorted findings. -/
theorem Report.map_security_assemble (projectName timestamp : String) (analysis : SourceAnalysis)
    (hotspots : List Hotspot) (audit : List Finding) (performance : Performance)
    (weights : Weights) :
    (Report.assemble projectName timestamp analysis hotspots audit performance weights).map
        (·.security) =
      (healthScore (Report.signalsOf analysis hotspots audit) weights).map fun _ =>
        Report.securityOf audit analysis := by
  unfold Report.assemble
  cases healthScore (Report.signalsOf analysis hotspots audit) weights with
  | error fault => rfl
  | ok score => rfl

/-- **The findings of a report.** Whatever the audit found and whatever files were analysed, the
report lists for each severity in turn the findings of the audit and then those of the files, in
their order; within a file the shapes come in the prefix order of its tree, and then the secrets,
line by line. None is lost, added or moved within its severity, and the numbers that are scored are
the sums over audit and files. -/
theorem security_listed_by_severity (parse : ScriptParser) (config : Config)
    (sources : List SourceFile) (manifest : Option Manifest) {order : List Nat}
    (horder : IsSchedule order sources) {analysis : SourceAnalysis}
    (h : SourceAnalysis.ofIn order parse config sources manifest = .ok analysis)
    (audit : List Finding) :
    (∀ projectName timestamp hotspots performance weights,
      (Report.assemble projectName timestamp analysis hotspots audit performance weights).map
          (·.security) =
        (healthScore (Report.signalsOf analysis hotspots audit) weights).map fun _ =>
          Finding.bySeverity audit (sources.flatMap (·.codeFindings parse))) ∧
      (∀ s ∈ sources, s.codeFindings parse = s.structuralFindings parse ++ s.secretFindings ∧
        s.secretFindings.Pairwise Finding.OnEarlierLine) ∧
      (Finding.bySeverity audit (sources.flatMap (·.codeFindings parse))).Perm
        (audit ++ sources.flatMap (·.codeFindings parse)) ∧
      (∀ severity, (Finding.bySeverity audit (sources.flatMap (·.codeFindings parse))).filter
          (·.severity == severity) =
        (audit ++ sources.flatMap (·.codeFindings parse)).filter (·.severity == severity)) ∧
      ∀ hotspots severity,
        Finding.count severity (Report.signalsOf analysis hotspots audit).findings =
          Finding.count severity audit +
            (sources.map fun s => Finding.count severity (s.codeFindings parse)).sum := by
  have hfindings := findings_ofIn horder h
  have hsorted := Finding.sort_append audit (sources.flatMap (·.codeFindings parse))
  refine ⟨?_, ?_, ?_, ?_, ?_⟩
  · intro projectName timestamp hotspots performance weights
    rw [Report.map_security_assemble, Report.securityOf_eq, hfindings]
  · exact fun s _ => ⟨rfl, s.pairwise_secretFindings⟩
  · rw [← hsorted]
    exact List.mergeSort_perm _ Finding.before
  · intro severity
    rw [← hsorted, Finding.filter_sort]
  · intro hotspots severity
    rw [Report.signalsOf, Report.securityOf, hfindings, Finding.count_sort, Finding.count_append,
      Finding.count_flatMap]

/-- A file with a secret in front of two dangerous calls, and one with a secret only. -/
def sampleSources : List SourceFile :=
  [⟨"a.js", 60, some "const password = 'correct horse';\neval(x);\ndocument.write(y);\n"⟩,
   ⟨"b.css", 30, some "token: 'abcdefghijklmnopqrst'"⟩]

/-- A finding of the audit. -/
def sampleAudit (name : String) (severity : Severity) : Finding :=
  { name, severity, description := .null, source := .dependencyAudit, category := "audit" }

/-- Three findings of the audit. -/
def sampleAudits : List Finding :=
  [sampleAudit "p" .low, sampleAudit "q" .critical, sampleAudit "r" .high]

/-- Two files, of which the second is finished first, and an audit, with the default weights. -/
theorem security_listed_by_severity_two_files :
    IsSchedule [1, 0] sampleSources ∧
      ∃ analysis security,
        SourceAnalysis.ofIn [1, 0] Script.parse {} sampleSources none = .ok analysis ∧
        (Report.assemble "demo" "" analysis [] sampleAudits {} {}).map (·.security) =
          .ok security ∧
        security.map (·.name) = ["q", "eval() Usage", "Hardcoded Secret/Password", "r",
          "Hardcoded Token", "document.write()", "p"] := by
  have horder : IsSchedule [1, 0] sampleSources := by
    unfold IsSchedule
    decide
  obtain ⟨analysis, hanalysis⟩ : ∃ analysis,
      SourceAnalysis.ofIn [1, 0] Script.parse {} sampleSources none = .ok analysis := ⟨_, rfl⟩
  -- the default weights are whole, and two files without imports and comments leave a score
  have hcounts : (do
      let a ← SourceAnalysis.ofIn [1, 0] Script.parse {} sampleSources none
      return (a.graph.edges.length, a.stats.commentLines)) = .ok (0, 0) :=
    Outcome.eq_ok_of_toOption (by decide +kernel)
  rw [hanalysis, Outcome.ok_bind] at hcounts
  obtain ⟨hedges, hcomments⟩ := Prod.mk.inj (Except.ok.inj hcounts)
  obtain ⟨score, hscore⟩ := exists_healthScore_of_integral
    (s := Report.signalsOf analysis [] sampleAudits) Weights.integral_default
    (hedges.trans_lt ratioBound_pos) (hcomments.trans_lt ratioBound_pos)
  refine ⟨horder, analysis,
    Finding.bySeverity sampleAudits (sampleSources.flatMap (·.codeFindings Script.parse)),
    hanalysis, ?_, by decide +kernel⟩
  rw [(security_listed_by_severity Script.parse {} sampleSources none horder hanalysis
    sampleAudits).1, hscore]
  rfl

end ScriptHealth
