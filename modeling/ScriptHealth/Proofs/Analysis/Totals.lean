import ScriptHealth.Proofs.Analysis.Schedule
import ScriptHealth.Proofs.Data.Sort
import ScriptHealth.Proofs.Data.Tally
import ScriptHealth.Proofs.Source.LineCount

/-!
# The totals of a project

All files of a project are counted, by extension too, but only the readable ones have lines. The
totals are kept beside the list of the readable files, which is sorted in the end. This file shows
that they belong together: the totals of the lines are the sums over the list, the list has exactly
the readable files, and the three kinds of lines add up, because they do so in every file.

## Main definitions

* `ProjectFile.ofSource` — the entry of a readable file
* `ProjectStats.Describes` — totals that describe the files of a project

## Main results

* `ProjectStats.filterMap_fileOf` — the entries are those of the readable files
* `ProjectStats.sum_total_eq` — balanced files have balanced totals
* `stats_describe_sources` — the totals of an analysis, under every schedule
-/

namespace ScriptHealth

open scoped Number.Plain

/-- The entry of a readable file, with the lines of its text. -/
def ProjectFile.ofSource (s : SourceFile) : ProjectFile where
  path := s.path
  size := s.size
  extension := s.extension
  lines := .of (s.text.getD "") s.extension

/-- The entries of the readable files, in the order of the project. -/
def ProjectFile.readable (sources : List SourceFile) : List ProjectFile :=
  (sources.filter (·.isReadable)).map ofSource

/-- The readable files with their line counts. -/
theorem filterMap_fileOf_zip (f : SourceFile → FileAnalysis) (sources : List SourceFile) :
    ((sources.zip (sources.map f)).filterMap fun p => ProjectStats.fileOf p.1 p.2) =
      sources.filterMap fun s => ProjectStats.fileOf s (f s) := by
  rw [← List.map_prod_left_eq_zip, List.filterMap_map]
  rfl

namespace ProjectStats

/-- Totals that describe the files of a project: every file is counted, and counted for its
extension; the totals of the lines are the sums over the listed files, and each line is code, a
comment or blank; the listed files are the readable ones, by falling number of code lines and
otherwise in the order of the project. -/
structure Describes (sources : List SourceFile) (stats : ProjectStats) : Prop where
  totalFiles : stats.totalFiles = sources.length
  sum_languages : stats.languages.values.sum = sources.length
  languages : ∀ ext, (stats.languages.get? ext).getD 0 = sources.countP (·.extension == ext)
  totalLines : stats.totalLines = (stats.files.map (·.lines.total)).sum
  codeLines : stats.codeLines = (stats.files.map (·.lines.code)).sum
  commentLines : stats.commentLines = (stats.files.map (·.lines.comment)).sum
  blankLines : stats.blankLines = (stats.files.map (·.lines.blank)).sum
  balance : stats.totalLines = stats.codeLines + stats.commentLines + stats.blankLines
  files_perm : stats.files.Perm (ProjectFile.readable sources)
  falling : stats.files.Pairwise fun f g => g.lines.code ≤ f.lines.code
  ties : ∀ n, stats.files.filter (·.lines.code == n) =
    (ProjectFile.readable sources).filter (·.lines.code == n)

variable (parse : ScriptParser) (isFile : String → Bool) (sources : List SourceFile)

/-- A file has an entry exactly if it can be read. -/
theorem fileOf_ofSource (s : SourceFile) :
    fileOf s (FileAnalysis.ofSource parse isFile s) =
      if s.isReadable then some (ProjectFile.ofSource s) else none := by
  obtain ⟨path, size, text⟩ := s
  cases text <;> rfl

/-- The entries that are counted and listed are those of the readable files. -/
theorem filterMap_fileOf :
    ((sources.zip (sources.map (FileAnalysis.ofSource parse isFile))).filterMap
      fun p => fileOf p.1 p.2) = ProjectFile.readable sources := by
  rw [filterMap_fileOf_zip]
  simp only [fileOf_ofSource]
  rw [ProjectFile.readable, ← List.filterMap_eq_map, List.filterMap_filter]
  rfl

/-- The totals of a project, in terms of its readable files and of the extensions of all files. -/
theorem of_eq :
    ProjectStats.of sources (sources.map (FileAnalysis.ofSource parse isFile)) =
      { totalFiles := sources.length
        totalLines := ((ProjectFile.readable sources).map (·.lines.total)).sum
        codeLines := ((ProjectFile.readable sources).map (·.lines.code)).sum
        commentLines := ((ProjectFile.readable sources).map (·.lines.comment)).sum
        blankLines := ((ProjectFile.readable sources).map (·.lines.blank)).sum
        languages := OrderedMap.tally (sources.map (·.extension))
        files := (ProjectFile.readable sources).mergeSort
          fun f g => g.lines.code ≤ f.lines.code } := by
  have hextensions : ((sources.zip (sources.map (FileAnalysis.ofSource parse isFile))).map
      fun p => p.1.extension) = sources.map (·.extension) := by
    rw [← List.map_prod_left_eq_zip, List.map_map]
    rfl
  simp only [ProjectStats.of, filterMap_fileOf, hextensions]
  rfl

/-- A total is the sum over the files in any order. -/
theorem sum_mergeSort (files : List ProjectFile) (le : ProjectFile → ProjectFile → Bool)
    (count : LineCount → Nat) :
    (files.map fun f => count f.lines).sum =
      ((files.mergeSort le).map fun f => count f.lines).sum :=
  ((List.mergeSort_perm files le).map _).sum_nat.symm

/-- Files whose lines add up have totals that add up. -/
theorem sum_total_eq {files : List ProjectFile}
    (h : ∀ f ∈ files, f.lines.code + f.lines.comment + f.lines.blank = f.lines.total) :
    (files.map (·.lines.total)).sum = (files.map (·.lines.code)).sum +
      (files.map (·.lines.comment)).sum + (files.map (·.lines.blank)).sum := by
  induction files with
  | nil => rfl
  | cons f files ih =>
    rw [List.forall_mem_cons] at h
    simp only [List.map_cons, List.sum_cons, ← h.1, ih h.2]
    omega

end ProjectStats

/-- **The totals of a project.** Whatever files a project has, readable or not, and in whatever
order the workers finish, an analysis under whole caps has totals that describe the files. -/
theorem stats_describe_sources (parse : ScriptParser) (config : Config) (sources : List SourceFile)
    (manifest : Option Manifest) {order : List Nat} (horder : IsSchedule order sources)
    {maxNodes maxEdges : Int} (hnodes : Config.cap config.maxNodes = .ok maxNodes)
    (hedges : Config.cap config.maxEdges = .ok maxEdges) :
    ∃ analysis, SourceAnalysis.ofIn order parse config sources manifest = .ok analysis ∧
      analysis.stats.Describes sources := by
  refine ⟨_, SourceAnalysis.ofIn_eq_merge parse horder hnodes hedges manifest, ?_⟩
  have hbalanced : ∀ f ∈ ProjectFile.readable sources,
      f.lines.code + f.lines.comment + f.lines.blank = f.lines.total := by
    intro f hf
    obtain ⟨s, -, rfl⟩ := List.mem_map.mp hf
    exact LineCount.balance_ofLines _ _ _
  rw [SourceAnalysis.merge, ProjectStats.of_eq]
  exact {
    totalFiles := rfl
    sum_languages := by
      rw [OrderedMap.sum_values_tally, List.length_map]
    languages := fun ext => by
      rw [OrderedMap.getD_get?_tally, List.count, List.countP_map]
      rfl
    totalLines := ProjectStats.sum_mergeSort _ _ (·.total)
    codeLines := ProjectStats.sum_mergeSort _ _ (·.code)
    commentLines := ProjectStats.sum_mergeSort _ _ (·.comment)
    blankLines := ProjectStats.sum_mergeSort _ _ (·.blank)
    balance := ProjectStats.sum_total_eq hbalanced
    files_perm := List.mergeSort_perm _ _
    falling := Sort.pairwise_falling (fun f : ProjectFile => f.lines.code) _
    ties := Sort.filter_falling (fun f : ProjectFile => f.lines.code) _
  }

/-- Two files with one line of code each, a file with more of it, and a file that cannot be read. -/
def tiedSources : List SourceFile :=
  [⟨"a.py", 12, some "x = 1\n# note"⟩, ⟨"b.js", 9, none⟩, ⟨"c.md", 1, some "y"⟩,
   ⟨"d.py", 19, some "# note\nz = 1\nw = 2"⟩]

/-- The two files with one line of code are listed in their order. -/
theorem stats_describe_sources_tiedSources :
    IsSchedule [3, 0, 2, 1] tiedSources ∧
      ∃ analysis, SourceAnalysis.ofIn [3, 0, 2, 1] Script.parse {} tiedSources none = .ok analysis ∧
        analysis.stats.Describes tiedSources ∧ analysis.stats.totalFiles = 4 ∧
        (analysis.stats.files.filter (·.lines.code == 1)).map (·.path) = ["a.py", "c.md"] := by
  have horder : IsSchedule [3, 0, 2, 1] tiedSources := by
    unfold IsSchedule
    decide
  obtain ⟨analysis, hanalysis, hstats⟩ :=
    stats_describe_sources Script.parse {} tiedSources none horder rfl rfl
  refine ⟨horder, analysis, hanalysis, hstats, hstats.totalFiles, ?_⟩
  rw [hstats.ties 1]
  decide +kernel

end ScriptHealth
