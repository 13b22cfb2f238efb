import ScriptHealth.Proofs.Project.Collaborators
import ScriptHealth.Proofs.Project.Reanalysis
import ScriptHealth.Proofs.Score.Range
import ScriptHealth.Proofs.Text.Paragraphs

/-!
# What an analysis does without

A manifest that cannot be read, an audit that fails and a history that is missing each count as
nothing, and the analysis goes on. Only the faults that these steps let through end it. Apart from
them a project has a report under the default configuration, unless its files are too large for a
ratio of counts to be a fraction.

## Main definitions

* `Project.Escape` — the faults that end an analysis
* `Project.Measured` — the counts that are divided
* `Report.Holds` — a report of what was given

## Main results

* `Project.analyze_cases` — a run from its first step to its last
* `analysis_reports_or_escapes` — a report, or a fault that is accounted for
* `analysis_escapes_on_long_numerals` — projects without a report
-/

namespace ScriptHealth

open Outcome Number

namespace Project

open Workspace

/-! ### What ends an analysis -/

section Accounted

variable (w : Workspace) (root : String) (tools : Tools)

/-- The faults that end an analysis. -/
inductive Escape : Fault → Prop
  | longRoot (h : w.find true root = .error .nameTooLong) :
      Escape (FileFault.nameTooLong.toFault root)
  | closedRoot (h : w.look root = .ok (some .closed)) : Escape (unlistable root .denied)
  | manifest {f : Fault} (h : ManifestEscape w root f) : Escape f
  | audit {f : Fault} (h : AuditEscape w root tools f) : Escape f
  | packages {f : Fault} (h : PackageEscape w root f) : Escape f

/-- The files of a project, listed and loaded. -/
def sourcesOf : Except Fault (List SourceFile) := do
  let (paths, _) ← (listFiles w root (selectionOf {})).result
  loadSources w root paths ({} : Config).workers

/-- What is learned from the files of a project. -/
def Learned (analysis : SourceAnalysis) : Prop :=
  ∃ sources, sourcesOf w root = .ok sources ∧
    SourceAnalysis.of tools.parse {} sources (manifest? w root) = .ok analysis

open scoped Number.Plain in
/-- The counts of a project that are divided. -/
inductive Measured : Nat → Prop
  | comments {analysis : SourceAnalysis} (h : Learned w root tools analysis) :
      Measured analysis.stats.commentLines
  | sources {analysis : SourceAnalysis} (h : Learned w root tools analysis) :
      Measured (analysis.stats.files.map (·.size)).sum
  | installed {n : Nat} (h : installedSize w root (manifest? w root) = .ok n) : Measured n

/-- A fault that is accounted for: an escape, or a count is too large for a fraction. -/
def Accounted (f : Fault) : Prop :=
  Escape w root tools f ∨ ∃ n, Measured w root tools n ∧ ratioBound ≤ n

end Accounted

variable {w : Workspace} {root : String}

/-! ### Sources -/

/-- Files whose paths hold no NUL can be loaded, readable or not. -/
theorem exists_loadSources {paths : List String} (hroot : IsAbsolute root)
    (hnul : '\x00' ∉ root.toList) (hpaths : ∀ path ∈ paths, '\x00' ∉ path.toList) :
    ∃ sources, loadSources w root paths ({} : Config).workers = .ok sources := by
  refine exists_ok_of_failsWith_false (FailsWith.bind (.ok ()) fun _ _ => ?_)
  refine FailsWith.mapM fun path hpath => ?_
  -- of the faults of reading only NUL is let through
  unfold loadSource
  dsimp only
  split
  · exact .ok _
  · rename_i hread
    exact absurd (find_of_read_nul hread) (find_ne_nul (isAbsolute_under_of_isAbsolute hroot path)
      (nul_notMem_under hnul (hpaths path hpath)))
  · exact .ok _

/-- The paths of listed files hold no NUL. -/
theorem nul_notMem_of_listed {place : Location} {es : List (String × Entry)} {s : Selection}
    (hw : w.tree.WellFormed) (hnul : w.tree.IsNulFree)
    (hget : w.tree.get? place = some (.folder es)) :
    ∀ path ∈ (filesBelow w s root (.folder es)).map "/".intercalate,
      '\x00' ∉ path.toList := by
  intro path hpath
  obtain ⟨p, hp, rfl⟩ := List.mem_map.mp hpath
  -- a listed path is the end of a location in the tree
  obtain ⟨folders, name, rfl, hlisted⟩ := (mem_filesBelow hw hget rfl).mp hp
  obtain ⟨e, he, -⟩ := hlisted.isFile
  exact nul_notMem_intercalate fun n hn => hnul _ e he n (List.mem_append_right place hn)

/-! ### Sizes -/

theorem failsWith_bytesPer (n : Nat) {unit : Nat} (hunit : 0 < unit) :
    FailsWith (fun _ => ratioBound ≤ n) (bytesPer n unit) := by
  by_cases hn : n < ratioBound
  · have hfinite := Binary64.ofRatio_ne_infinite (k := 1023) hn (by decide) hunit
    obtain ⟨a, c, e, hx⟩ := Binary64.isFinite_ofRatio hfinite
    unfold bytesPer
    rw [decide_eq_false (Int.not_lt.mpr (Int.natCast_nonneg n)), Int.natAbs_natCast, hx]
    exact .ok _
  · exact fun _ _ => Nat.not_lt.mp hn

theorem failsWith_formatSize (n : Nat) : FailsWith (fun _ => ratioBound ≤ n) (formatSize n) := by
  unfold formatSize
  split
  · exact .ok _
  · split
    · exact (failsWith_bytesPer n (by decide)).map
    · exact (failsWith_bytesPer n (by decide)).map

open scoped Number.Plain in
/-- Sizes can be written unless they are too large. -/
theorem failsWith_performance (files : List ProjectFile) (manifest : Option Manifest)
    (installed : Nat) :
    FailsWith (fun _ => ratioBound ≤ installed ∨ ratioBound ≤ (files.map (·.size)).sum)
      (Performance.of files manifest installed) := by
  -- what is shipped counts as the installed packages or, without any, as the sources
  have hshipped {P : Nat → Prop} (h : P (if 0 < installed then installed else
      (files.map (·.size)).sum)) : P installed ∨ P (files.map (·.size)).sum := by
    split at h
    · exact .inl h
    · exact .inr h
  unfold Performance.of
  refine FailsWith.bind (FailsWith.mapM fun f hf => ?_) fun large _ => ?_
  · refine ((failsWith_formatSize f.size).mono fun _ h => .inr ?_).bind fun _ _ => .ok _
    have hmem := List.mem_map_of_mem (f := ProjectFile.size) (List.mem_of_mem_filter hf)
    exact h.trans (List.le_sum_of_mem hmem)
  · refine ((failsWith_formatSize _).mono fun _ => hshipped).bind fun _ _ => ?_
    refine ((failsWith_formatSize _).mono fun _ => .inr).bind fun _ _ => ?_
    refine FailsWith.bind ?_ fun _ _ => .ok _
    exact (failsWith_bytesPer _ (by decide)).map.mono fun _ => hshipped

/-! ### The score -/

theorem length_capped_le {α : Type} (cap : Nat) (items : List α) :
    (capped cap items).length ≤ cap := by
  unfold capped
  rw [if_neg (Int.not_lt.mpr (Int.natCast_nonneg cap)), Int.toNat_natCast, List.length_take]
  exact Nat.min_le_left _ _

theorem source_of_mem_ofSource {parse : ScriptParser} {isFile : String → Bool} {s : SourceFile}
    {f : Finding} (h : f ∈ (FileAnalysis.ofSource parse isFile s).findings) :
    f.source = .codeScan := by
  unfold FileAnalysis.ofSource at h
  split at h
  · exact absurd h List.not_mem_nil
  · rename_i text _
    rcases List.mem_append.mp h with htree | hsecret
    · cases hparsed : parse.treeOf? s.path text with
      | none =>
        rw [hparsed] at htree
        exact absurd htree List.not_mem_nil
      | some tree =>
        rw [hparsed] at htree
        obtain ⟨n, -, hn⟩ := List.mem_flatMap.mp htree
        obtain ⟨shape, -, rfl⟩ := List.mem_map.mp hn
        rfl
    · obtain ⟨line, -, hline⟩ := List.mem_filterMap.mp hsecret
      obtain ⟨pattern, -, rfl⟩ := Option.map_eq_some_iff.mp hline
      rfl

theorem source_of_mem_findings {v : Value} {f : Finding} (h : f ∈ Audit.findings v) :
    f.source = .dependencyAudit := by
  have hvulnerability {name : String} {v : Value} (h : Audit.ofVulnerability? name v = some f) :
      f.source = .dependencyAudit := by
    unfold Audit.ofVulnerability? at h
    split at h
    · cases h
      rfl
    · cases h
  have hadvisory {v : Value} (h : Audit.ofAdvisory? v = some f) : f.source = .dependencyAudit := by
    unfold Audit.ofAdvisory? at h
    split at h
    · cases h
      rfl
    · cases h
  unfold Audit.findings at h
  split at h
  · split at h
    · obtain ⟨e, -, he⟩ := List.mem_filterMap.mp h
      exact hvulnerability he
    · split at h
      · obtain ⟨e, -, he⟩ := List.mem_filterMap.mp h
        exact hadvisory he
      · obtain ⟨v, -, hv⟩ := List.mem_filterMap.mp h
        exact hadvisory hv
      · exact absurd h List.not_mem_nil
  · exact absurd h List.not_mem_nil

/-- The default configuration cuts no list at a fraction. -/
theorem analysis_default (parse : ScriptParser) (sources : List SourceFile)
    (manifest : Option Manifest) :
    ∃ analysis specifiers, SourceAnalysis.of parse {} sources manifest = .ok analysis ∧
      analysis.packages = .classify manifest specifiers ∧
      analysis.graph.edges.length ≤ 2000 ∧ ∀ f ∈ analysis.findings, f.source = .codeScan := by
  have hnodes : Config.cap ({} : Config).maxNodes = .ok 1000 := rfl
  have hedges : Config.cap ({} : Config).maxEdges = .ok 2000 := rfl
  refine ⟨_, _, SourceAnalysis.of_eq_merge parse hnodes hedges sources manifest, rfl,
    length_capped_le 2000 _, ?_⟩
  intro f hf
  obtain ⟨a, ha, hfa⟩ := List.mem_flatMap.mp hf
  obtain ⟨s, -, rfl⟩ := List.mem_map.mp ha
  exact source_of_mem_ofSource hfa

/-- A report can be assembled unless there are too many comments. -/
theorem failsWith_assemble {analysis : SourceAnalysis} (hedges : analysis.graph.edges.length ≤ 2000)
    (name timestamp : String) (hotspots : List Hotspot) (findings : List Finding)
    (performance : Performance) :
    FailsWith (fun _ => ratioBound ≤ analysis.stats.commentLines)
      (Report.assemble name timestamp analysis hotspots findings performance {}) := by
  have hsmall : 2000 ≤ 2 ^ moderateExponent :=
    (show 2000 ≤ 2 ^ 11 by decide).trans (Nat.pow_le_pow_right (by decide) (by decide))
  by_cases hcomments : analysis.stats.commentLines < ratioBound
  · obtain ⟨n, hscore⟩ := exists_healthScore_of_integral
      (s := Report.signalsOf analysis hotspots findings) Weights.integral_default
      (lt_ratioBound (hedges.trans hsmall)) hcomments
    unfold Report.assemble
    rw [hscore]
    exact .ok _
  · exact fun _ _ => Nat.not_lt.mp hcomments

end Project

/-! ### Reports -/

/-- A report of what the manifest, the audit and the history gave; what gave nothing counts as
empty. -/
structure Report.Holds (r : Report) (manifest : Option Manifest) (answer : Option Value)
    (commits : Option String) : Prop where
  packages : ∃ specifiers, r.packages = .classify manifest specifiers
  audit : (r.security.filter (·.source = .dependencyAudit)).Perm
    ((answer.map Audit.findings).getD [])
  hotspots : r.hotspots = (commits.map (Hotspot.rank 10)).getD []
  score : 0 ≤ r.score ∧ r.score ≤ 100

theorem Report.holds_of_assemble {name timestamp : String} {analysis : SourceAnalysis}
    {manifest : Option Manifest} {answer : Option Value} {commits : Option String}
    {performance : Performance} {r : Report} {specifiers : List String}
    (hpackages : analysis.packages = .classify manifest specifiers)
    (hcode : ∀ f ∈ analysis.findings, f.source = .codeScan)
    (h : Report.assemble name timestamp analysis ((commits.map (Hotspot.rank 10)).getD [])
      ((answer.map Audit.findings).getD []) performance {} = .ok r) :
    r.Holds manifest answer commits := by
  obtain ⟨score, hscore, h⟩ := bind_eq_ok.mp h
  cases h
  obtain ⟨b, -, hb⟩ := bind_eq_ok.mp hscore
  refine ⟨⟨specifiers, hpackages⟩, ?_, rfl, Breakdown.score_mem_range hb⟩
  -- sorting moves the findings, and those of the code are left out
  refine ((List.mergeSort_perm _ _).filter _).trans ?_
  have haudit : ∀ f ∈ (answer.map Audit.findings).getD [],
      decide (f.source = .dependencyAudit) = true := by
    cases answer with
    | none => exact fun _ hf => absurd hf List.not_mem_nil
    | some v => exact fun f hf => decide_eq_true (Project.source_of_mem_findings hf)
  have hnone : analysis.findings.filter (fun f => decide (f.source = .dependencyAudit)) = [] := by
    rw [List.filter_eq_nil_iff]
    intro f hf
    rw [hcode f hf]
    decide
  rw [List.filter_append, List.filter_eq_self.mpr haudit, hnone, List.append_nil]

namespace Project

open Workspace

variable {w : Workspace} {path : String} {place : Location}

/-- A project has a report and no escapes, or its analysis ends with a fault that is accounted
for. -/
theorem analyze_cases (hw : w.tree.WellFormed) (hnul : w.tree.IsNulFree)
    (hfind : w.find true path = .ok place) {e : Entry} (hget : w.tree.get? place = some e)
    (hfolder : e.isDirectory = true) (tools : Tools) (timestamp : String) :
    (∃ f, (analyze w tools timestamp path {}).result = .error f ∧
        Accounted w (pathOf place) tools f) ∨
      ∃ report logs, (analyze w tools timestamp path {}).result = .ok (report, logs) ∧
        report.Holds (manifest? w (pathOf place)) (auditAnswer? w (pathOf place) tools)
          (commits? tools) ∧
        ∀ f, ¬Escape w (pathOf place) tools f := by
  have hreal := realPath_of_find hfind
  have hroot := find_realPath hfind hget hfolder hnul
  have habsolute := isAbsolute_pathOf place
  have hrootNul := nul_notMem_pathOf (hnul place _ hget)
  generalize pathOf place = root at hreal hroot habsolute hrootNul ⊢
  split at hroot
  · -- the real path is too long as a whole
    have hlook := look_eq_error_iff.mpr (.longName hroot)
    refine .inl ⟨_, result_analyze_of_error tools timestamp hreal ?_, .inl (.longRoot hroot)⟩
    unfold listFiles
    rw [hlook]
    rfl
  rcases Entry.isDirectory_iff.mp hfolder with rfl | ⟨es, rfl⟩
  · -- the root is closed
    have hlook := look_eq_some_iff.mpr ⟨place, hroot, hget⟩
    refine .inl ⟨_, result_analyze_of_error tools timestamp hreal ?_, .inl (.closedRoot hlook)⟩
    rw [listFiles_of_closed hlook]
    rfl
  · -- from here on each step either ends the run or hands its value on
    have hlook := look_eq_some_iff.mpr ⟨place, hroot, hget⟩
    obtain ⟨s, hs⟩ : ∃ s, selectionOf {} = .ok s := ⟨_, rfl⟩
    obtain ⟨logs, hlisted, hrun⟩ := exists_result_analyze tools timestamp hreal hs hlook
    obtain ⟨sources, hsources⟩ := exists_loadSources (w := w) habsolute hrootNul
      (nul_notMem_of_listed (s := s) hw hnul hget)
    rw [← hs] at hlisted
    have hloaded : sourcesOf w root = .ok sources := by
      unfold sourcesOf
      exact bind_eq_ok.mpr ⟨_, hlisted, hsources⟩
    rw [hrun]
    unfold analyzeFiles
    rw [hsources, Logged.ok_bind rfl]
    rcases yields_loadManifest w root logs with ⟨f, hf, hescape⟩ | ⟨hmanifest, logs, hrun⟩
    · exact .inl ⟨f, Logged.error_bind hf, .inl (.manifest hescape)⟩
    obtain ⟨analysis, specifiers, hanalysis, hpackages, hedges, hcode⟩ :=
      analysis_default tools.parse sources (manifest? w root)
    have hlearned : Learned w root tools analysis := ⟨sources, hloaded, hanalysis⟩
    rw [Logged.ok_bind hrun, hanalysis, Logged.ok_bind rfl]
    rcases yields_auditIfAsked w root tools logs with ⟨f, hf, hescape⟩ | ⟨haudit, logs, hrun⟩
    · exact .inl ⟨f, Logged.error_bind hf, .inl (.audit hescape)⟩
    rw [Logged.ok_bind hrun]
    rcases yields_historyIfAsked root tools logs with ⟨f, -, ⟨⟩⟩ | ⟨-, logs, hrun⟩
    rw [Logged.ok_bind hrun]
    rcases installedSize_cases w root with ⟨f, hf, hescape⟩ | ⟨hpackage, installed, hsize⟩
    · rw [hf]
      exact .inl ⟨f, rfl, .inl (.packages hescape)⟩
    rw [hsize, Logged.ok_bind rfl]
    cases hperformance : Performance.of analysis.stats.files (manifest? w root) installed with
    | error f =>
      refine .inl ⟨f, rfl, .inr ?_⟩
      rcases failsWith_performance _ _ _ f hperformance with h | h
      · exact ⟨installed, .installed hsize, h⟩
      · exact ⟨_, .sources hlearned, h⟩
    | ok performance =>
      rw [Logged.ok_bind rfl]
      cases hreport : Report.assemble (nameOf root) timestamp analysis
          (((commits? tools).map (Hotspot.rank 10)).getD [])
          (((auditAnswer? w root tools).map Audit.findings).getD []) performance {} with
      | error f =>
        have hmany := failsWith_assemble hedges _ _ _ _ _ f hreport
        exact .inl ⟨f, rfl, .inr ⟨_, .comments hlearned, hmany⟩⟩
      | ok report =>
        refine .inr ⟨report, logs, rfl, Report.holds_of_assemble hpackages hcode hreport, ?_⟩
        rintro f (hlong | hclosed | h | h | h)
        · cases hroot.symm.trans hlong
        · cases hlook.symm.trans hclosed
        · exact hmanifest f h
        · exact haudit f h
        · exact hpackage f h

end Project

/-- **What an analysis does without.** A project whose root is a folder, in a tree of possible
names, has a report under the default configuration, or its analysis ends with a fault that is
accounted for. This holds for all tools, also for a parser that fails on scripts. The report holds
what the manifest, the audit and the history gave, and a manifest that cannot be read, an audit that
fails and a missing history count as nothing. Its score is in range. The faults are a root that is
closed, paths with a name that is too long or with a closed folder on the way, and integers of too
many digits in the manifest or in the answer of the audit; every one of them ends the analysis.
Besides, a count may be too large for a fraction. -/
theorem analysis_reports_or_escapes {w : Workspace} {path : String} (hw : w.tree.WellFormed)
    (hnul : w.tree.IsNulFree) (hproject : w.isFolder path = .ok true) (tools : Tools)
    (timestamp : String) :
    ∃ root, w.realPath path = .ok root ∧
      ((∃ report logs, (Project.analyze w tools timestamp path {}).result = .ok (report, logs) ∧
          report.Holds (Project.manifest? w root) (Project.auditAnswer? w root tools)
            (Project.commits? tools)) ∨
        ∃ f, (Project.analyze w tools timestamp path {}).result = .error f ∧
          (Project.Escape w root tools f ∨
            ∃ n, Project.Measured w root tools n ∧ ratioBound ≤ n)) ∧
      ∀ f, Project.Escape w root tools f →
        ∃ g, (Project.analyze w tools timestamp path {}).result = .error g := by
  obtain ⟨place, e, hfind, hget, hfolder⟩ := Workspace.exists_of_isFolder hproject
  refine ⟨_, Workspace.realPath_of_find hfind, ?_⟩
  rcases Project.analyze_cases hw hnul hfind hget hfolder tools timestamp with
    ⟨f, hf, haccounted⟩ | ⟨report, logs, hok, hholds, hnone⟩
  · exact ⟨.inr ⟨f, hf, haccounted⟩, fun _ _ => ⟨f, hf⟩⟩
  · exact ⟨.inl ⟨report, logs, hok, hholds⟩, fun f hf => absurd hf (hnone f)⟩

namespace Project

open Workspace

/-- The project that has a manifest and nothing else, when no program can be run. -/
theorem given_manifestTree :
    manifestTree.IsNulFree ∧ manifest? { tree := manifestTree } "/" = some sampleManifest ∧
      auditAnswer? { tree := manifestTree } "/" {} = none ∧ commits? {} = none := by
  refine ⟨?_, ?_, ?_, rfl⟩
  · refine Entry.isNulFree_folder (by decide) fun d hd => ?_
    rw [List.mem_singleton.mp hd]
    exact Entry.isNulFree_file _
  · obtain ⟨htext, hparse, -⟩ := read_sampleManifestText
    unfold manifest?
    rw [look_manifestTree]
    dsimp only
    rw [htext, Option.bind_some, hparse]
  · unfold auditAnswer? isAuditable Workspace.isFile
    rw [look_manifestTree,
      look_of_find (find_manifestTree [Manifest.lockFileName] (by simp [topPaths]) rfl true)]
    rfl

end Project

/-- A project whose manifest can be read, without an audit and without a history. -/
theorem analysis_reports_or_escapes_manifestTree :
    Project.manifestTree.WellFormed ∧ Project.manifestTree.IsNulFree ∧
      Workspace.isFolder { tree := Project.manifestTree } "/" = .ok true ∧
      ∃ report logs,
        (Project.analyze { tree := Project.manifestTree } {} "" "/" {}).result =
          .ok (report, logs) ∧ report.Holds (some Project.sampleManifest) none none := by
  have hw := Project.isPlain_manifestTree.wellFormed
  obtain ⟨hnul, hmanifest, hanswer, hcommits⟩ := Project.given_manifestTree
  have hfolder : Workspace.isFolder { tree := Project.manifestTree } "/" = .ok true :=
    Workspace.IsOpen.isFolder ⟨_, Workspace.look_top Project.manifestTree⟩
  refine ⟨hw, hnul, hfolder, ?_⟩
  obtain ⟨root, hroot, hcases, -⟩ := analysis_reports_or_escapes
    (w := { tree := Project.manifestTree }) hw hnul hfolder {} ""
  have hreal : Workspace.realPath { tree := Project.manifestTree } "/" = .ok "/" :=
    Workspace.realPath_of_find (Workspace.find_top Project.manifestTree)
  obtain rfl : root = "/" := Except.ok.inj (hroot.symm.trans hreal)
  rcases hcases with hreport | ⟨f, hf, -⟩
  · rwa [hmanifest, hanswer, hcommits] at hreport
  · obtain ⟨r, logs, hr⟩ := Project.exists_analyze_manifestTree
    cases hf.symm.trans hr

namespace Project

open Workspace

/-! ### Long numerals -/

/-- A text of nines. -/
def nines (count : Nat) : List Char := List.replicate count '9'

/-- The bytes of a text of nines. -/
def nineBytes (count : Nat) : ByteArray := ⟨(List.replicate count 57).toArray⟩

theorem parse_nines {count : Nat} (h : digitLimit < count) :
    Json.parse (nines count) = .error (.tooManyDigits count) := by
  have hlength : (nines count).length = count := List.length_replicate
  have hdigits : ∀ c ∈ nines count, c.isDigit = true := by
    intro c hc
    rw [List.eq_of_mem_replicate hc]
    rfl
  have hhead : (nines count).head? ≠ some '0' := by
    intro hzero
    exact absurd (List.eq_of_mem_replicate (List.mem_of_mem_head? hzero)) (by decide)
  rw [Json.parse_digits hdigits hhead (by rwa [hlength]), hlength]

theorem units_nineBytes (count : Nat) :
    Utf8.units (nineBytes count).data.toList = List.replicate count (some '9') := by
  have hfold (found : List (Option Char)) :
      (List.replicate count (57 : UInt8)).foldl Utf8.Machine.step ⟨found, none⟩ =
        ⟨List.replicate count (some '9') ++ found, none⟩ := by
    induction count generalizing found with
    | zero => rfl
    | succ n ih =>
      have hstep : Utf8.Machine.step ⟨found, none⟩ 57 = ⟨some '9' :: found, none⟩ := rfl
      rw [List.replicate_succ, List.foldl_cons, hstep, ih, List.replicate_succ',
        List.append_assoc, List.singleton_append]
  change ((List.replicate count (57 : UInt8)).foldl Utf8.Machine.step {}).finish = _
  rw [hfold, List.append_nil]
  exact List.reverse_replicate

theorem strictText?_nineBytes (count : Nat) :
    strictText? (nineBytes count).data.toList = some (nines count) := by
  have hdecode : Utf8.decode? (nineBytes count).data.toList = some (nines count) := by
    rw [Utf8.decode?, units_nineBytes, if_pos (by simp),
      List.filterMap_replicate_of_some (f := id) (b := '9') rfl]
    rfl
  have hreturn : '\r' ∉ nines count := fun h => absurd (List.eq_of_mem_replicate h) (by decide)
  rw [strictText?, hdecode, Option.map_some, Text.unifyBreaks_of_notMem hreturn]

/-- A tree of files only. -/
def flatTree (files : List (String × ByteArray)) : Entry :=
  .folder (files.map fun f => (f.1, .file f.2))

/-- Names that files can have, each of them once. -/
def ArePossible (names : List String) : Prop :=
  names.Nodup ∧ ∀ name ∈ names, Location.IsName name ∧ '\x00' ∉ name.toList

instance (names : List String) : Decidable (ArePossible names) :=
  inferInstanceAs (Decidable (_ ∧ _))

section Flat

variable {files : List (String × ByteArray)}

theorem keys_flatTree :
    OrderedMap.keys (files.map fun f => (f.1, Entry.file f.2)) = files.map Prod.fst := by
  rw [OrderedMap.keys, List.map_map]
  rfl

variable (h : ArePossible (files.map Prod.fst))

include h

theorem isPlain_flatTree : (flatTree files).IsPlain := by
  refine Entry.isPlain_folder ?_ ?_ fun d hd => ?_
  · rw [keys_flatTree]
    exact h.1
  · rw [keys_flatTree]
    exact fun name hname => (h.2 name hname).1
  · obtain ⟨f, -, rfl⟩ := List.mem_map.mp hd
    exact Entry.isPlain_file f.2

theorem isNulFree_flatTree : (flatTree files).IsNulFree := by
  refine Entry.isNulFree_folder ?_ fun d hd => ?_
  · rw [keys_flatTree]
    exact fun name hname => (h.2 name hname).2
  · obtain ⟨f, -, rfl⟩ := List.mem_map.mp hd
    exact Entry.isNulFree_file f.2

theorem look_flatTree (name : String) (hpath : (under "/" name, [name]) ∈ topPaths) :
    look { tree := flatTree files } (under "/" name) = .ok ((flatTree files).get? [name]) :=
  look_of_find (find_topPaths (isPlain_flatTree h) [name] hpath ⟨_, rfl⟩ true)

/-- An escape leaves such a project without a report. -/
theorem analyze_fails_of_escape {tools : Tools} {f : Fault}
    (hescape : Escape { tree := flatTree files } "/" tools f) :
    ∃ g, (analyze { tree := flatTree files } tools "" "/" {}).result = .error g := by
  rcases analyze_cases (isPlain_flatTree h).wellFormed (isNulFree_flatTree h)
    (find_top (flatTree files)) rfl rfl tools "" with ⟨g, hg, -⟩ | ⟨report, logs, -, -, hnone⟩
  · exact ⟨g, hg⟩
  · exact absurd hescape (hnone f)

end Flat

/-- A project whose manifest is an integer of 4301 digits. -/
def longManifest : List (String × ByteArray) := [(Manifest.fileName, nineBytes 4301)]

/-- A project with a manifest and a lock file. -/
def lockedFiles : List (String × ByteArray) :=
  [(Manifest.fileName, .empty), (Manifest.lockFileName, .empty)]

/-- An audit that answers with an integer of 4301 digits. -/
def longAnswer : Tools := { audit := .finished 0 (String.ofList (nines 4301)) "" }

end Project

/-- Projects without a report: the manifest is an integer with too many digits, or the answer of the
audit is one. -/
theorem analysis_escapes_on_long_numerals :
    (∃ f, (Project.analyze { tree := Project.flatTree Project.longManifest } {} "" "/" {}).result =
      .error f) ∧
    ∃ f, (Project.analyze { tree := Project.flatTree Project.lockedFiles } Project.longAnswer "" "/"
      {}).result = .error f := by
  constructor
  · have hpossible : Project.ArePossible (Project.longManifest.map Prod.fst) := by decide
    have hlook := Project.look_flatTree hpossible Manifest.fileName (by simp [Project.topPaths])
    exact Project.analyze_fails_of_escape hpossible (.manifest (.numeral hlook
      (Project.strictText?_nineBytes 4301) (Project.parse_nines (by decide))))
  · have hpossible : Project.ArePossible (Project.lockedFiles.map Prod.fst) := by decide
    have hlock : Project.isAuditable { tree := Project.flatTree Project.lockedFiles } "/" =
        .ok true := by
      unfold Project.isAuditable Workspace.isFile
      rw [Project.look_flatTree hpossible Manifest.fileName (by simp [Project.topPaths]),
        Project.look_flatTree hpossible Manifest.lockFileName (by simp [Project.topPaths])]
      rfl
    have hparse : Json.parse (String.ofList (Project.nines 4301)).toList =
        .error (.tooManyDigits 4301) := by
      rw [String.toList_ofList]
      exact Project.parse_nines (by decide)
    exact Project.analyze_fails_of_escape hpossible (.audit (.answer hlock (.numeral hparse)))

end ScriptHealth
