import ScriptHealth.Analysis.Sources
import Mathlib.Data.List.Perm.Basic

/-!
# Schedules of the worker pool

The workers of a pool finish their tasks in some order, and each result goes into the slot of its
task. This file shows that the order leaves no trace: once every task has finished, the slots hold
the results of the tasks one by one.

The invariant is about a run that has not ended yet. After any list of finished tasks, a slot is
filled exactly if its task is among them, and then with the result of that very task.

## Main results

* `Pool.getElem?_settle` — what finishing one task does to each slot
* `Pool.getElem?_foldl_settle` — what a slot holds after any part of a run
* `Pool.collect_eq_map` — a run that finishes every task gives the sequential results
* `analyses_independent_of_schedule` — the same for the files of a project and all that is merged
  from them
-/

namespace ScriptHealth

namespace Pool

variable {α β : Type} (f : α → β) (tasks : List α)

/-- Finishing a task keeps the number of slots. -/
@[simp] theorem length_settle (slots : List (Option β)) (i : Nat) :
    (settle f tasks slots i).length = slots.length := by
  unfold settle
  split
  · exact List.length_set
  · rfl

/-- Finishing task `i` fills slot `i` with the result of that task and touches no other slot. -/
theorem getElem?_settle {slots : List (Option β)} (hlen : slots.length = tasks.length)
    (i j : Nat) :
    (settle f tasks slots i)[j]? =
      if i = j then (tasks[j]?).map fun task => some (f task) else slots[j]? := by
  unfold settle
  split
  · rename_i task htask
    have hi : i < slots.length := by
      rw [hlen]
      exact (List.getElem?_eq_some_iff.mp htask).1
    rw [List.getElem?_set]
    split
    · rename_i hij
      subst hij
      simp [htask]
    · rfl
  · -- a number that is no task has no slot either
    rename_i hnone
    split
    · rename_i hij
      subst hij
      have hi : slots.length ≤ i := by
        rw [hlen]
        exact List.getElem?_eq_none_iff.mp hnone
      simp [hnone, List.getElem?_eq_none hi]
    · rfl

/-- After any part of a run, the slots of the finished tasks hold their results and the others are
as they were. -/
theorem getElem?_foldl_settle (finished : List Nat) {slots : List (Option β)}
    (hlen : slots.length = tasks.length) (j : Nat) :
    (finished.foldl (settle f tasks) slots)[j]? =
      if j ∈ finished then (tasks[j]?).map fun task => some (f task) else slots[j]? := by
  induction finished generalizing slots with
  | nil => simp
  | cons i rest ih =>
    have hstep : (settle f tasks slots i).length = tasks.length := by
      rw [length_settle, hlen]
    -- a task that finishes once more writes the same result into the same slot
    rw [List.foldl_cons, ih hstep, getElem?_settle f tasks hlen]
    by_cases hj : j ∈ rest
    · simp [hj]
    · by_cases hij : i = j
      · subst hij
        simp
      · have hji : j ≠ i := fun h => hij h.symm
        simp [hj, hij, hji]

/-- When every task has finished, each slot holds the result of its task. -/
theorem foldl_settle_eq_map {order : List Nat} (complete : ∀ i < tasks.length, i ∈ order) :
    order.foldl (settle f tasks) (List.replicate tasks.length none) =
      tasks.map fun task => some (f task) := by
  apply List.ext_getElem?
  intro j
  rw [getElem?_foldl_settle f tasks order List.length_replicate, List.getElem?_map]
  -- beyond the last task there is no slot on either side
  by_cases hj : j < tasks.length
  · rw [if_pos (complete j hj)]
  · have hnone : tasks[j]? = none := List.getElem?_eq_none (Nat.le_of_not_lt hj)
    split
    · rfl
    · simp [hj]

/-- A run that finishes every task, in any order, collects the sequential results. -/
theorem collect_eq_map {order : List Nat} (complete : ∀ i < tasks.length, i ∈ order) :
    collect order f tasks = tasks.map f := by
  -- every slot is filled, so dropping the empty ones drops nothing
  rw [collect, foldl_settle_eq_map f tasks complete, List.filterMap_map]
  exact congrFun List.filterMap_eq_map tasks

end Pool

/-! ### The files of a project -/

/-- Only the set of paths decides what counts as a file of the project. -/
theorem isProjectFile_congr {sources sources' : List SourceFile}
    (same : ∀ p, p ∈ sources.map (·.path) ↔ p ∈ sources'.map (·.path)) :
    isProjectFile sources = isProjectFile sources' := by
  funext p
  have hmem (files : List SourceFile) :
      isProjectFile files p = true ↔ p ∈ files.map (·.path) := by
    simp [isProjectFile]
  rw [Bool.eq_iff_iff, hmem, hmem]
  exact same p

/-- The analysis of a file names that file. -/
@[simp] theorem FileAnalysis.path_ofSource (parse : ScriptParser) (isFile : String → Bool)
    (s : SourceFile) : (FileAnalysis.ofSource parse isFile s).path = s.path := by
  unfold FileAnalysis.ofSource
  split <;> rfl

/-- A schedule: every task finishes once. -/
def IsSchedule (order : List Nat) (sources : List SourceFile) : Prop :=
  order.Perm (List.range sources.length)

theorem isSchedule_range (sources : List SourceFile) :
    IsSchedule (List.range sources.length) sources :=
  List.Perm.refl _

/-- Under every schedule the analyses are those of the single files, in the order of the files. -/
theorem analyzeFilesIn_eq_map (parse : ScriptParser) {order : List Nat}
    {sources : List SourceFile} (h : IsSchedule order sources) :
    analyzeFilesIn order parse sources =
      sources.map (FileAnalysis.ofSource parse (isProjectFile sources)) := by
  apply Pool.collect_eq_map
  intro i hi
  exact h.mem_iff.mpr (List.mem_range.mpr hi)

/-- Under whole caps there is an analysis, merged from those of the single files. -/
theorem SourceAnalysis.ofIn_eq_merge (parse : ScriptParser) {config : Config} {order : List Nat}
    {sources : List SourceFile} (h : IsSchedule order sources) {maxNodes maxEdges : Int}
    (hnodes : Config.cap config.maxNodes = .ok maxNodes)
    (hedges : Config.cap config.maxEdges = .ok maxEdges) (manifest : Option Manifest) :
    SourceAnalysis.ofIn order parse config sources manifest =
      .ok (merge sources (sources.map (FileAnalysis.ofSource parse (isProjectFile sources)))
        manifest maxNodes maxEdges) := by
  rw [SourceAnalysis.ofIn, hnodes, hedges, analyzeFilesIn_eq_map parse h]
  rfl

/-- The analysis of a file depends on that file and on the set of all paths. -/
theorem getElem?_analyzeFilesIn_congr (parse : ScriptParser) {order order' : List Nat}
    {sources sources' : List SourceFile} (h : IsSchedule order sources)
    (h' : IsSchedule order' sources')
    (same : ∀ p, p ∈ sources.map (·.path) ↔ p ∈ sources'.map (·.path)) {i j : Nat}
    (hij : sources[i]? = sources'[j]?) :
    (analyzeFilesIn order parse sources)[i]? = (analyzeFilesIn order' parse sources')[j]? := by
  rw [analyzeFilesIn_eq_map parse h, analyzeFilesIn_eq_map parse h', isProjectFile_congr same,
    List.getElem?_map, List.getElem?_map, hij]

/-- Replacing the text of a file keeps the paths of the project. -/
theorem map_path_modify_text (sources : List SourceFile) (k : Nat) (text : Option String) :
    (sources.modify k fun s => { s with text }).map (·.path) = sources.map (·.path) := by
  apply List.ext_getElem?
  intro i
  rw [List.getElem?_map, List.getElem?_map, List.getElem?_modify]
  cases sources[i]? with
  | none => rfl
  | some s =>
    by_cases hki : k = i <;> simp [hki]

/-- **Schedules leave no trace.** Whatever the order in which the workers finish, the analyses are
the sequential ones, file by file; the analysis of a file depends on nothing but that file and the
set of all paths, so a new text of one file changes no other analysis; and what is merged from the
analyses depends neither on the order nor on the number of workers. -/
theorem analyses_independent_of_schedule (parse : ScriptParser) (sources : List SourceFile)
    (order : List Nat) (h : IsSchedule order sources) :
    analyzeFilesIn order parse sources =
        sources.map (FileAnalysis.ofSource parse (isProjectFile sources)) ∧
      (analyzeFilesIn order parse sources).length = sources.length ∧
      (∀ i : Nat,
        ((analyzeFilesIn order parse sources)[i]?).map (·.path) = (sources[i]?).map (·.path)) ∧
      (∀ sources' order', IsSchedule order' sources' →
        (∀ p, p ∈ sources.map (·.path) ↔ p ∈ sources'.map (·.path)) →
        ∀ i j : Nat, sources[i]? = sources'[j]? →
          (analyzeFilesIn order parse sources)[i]? = (analyzeFilesIn order' parse sources')[j]?) ∧
      (∀ (k : Nat) (text : Option String) (i : Nat), k ≠ i →
        (analyzeFilesIn order parse (sources.modify k fun s => { s with text }))[i]? =
          (analyzeFilesIn order parse sources)[i]?) ∧
      ∀ config workers manifest,
        SourceAnalysis.ofIn order parse { config with workers } sources manifest =
          SourceAnalysis.of parse config sources manifest := by
  have hmap := analyzeFilesIn_eq_map parse h
  refine ⟨hmap, ?_, ?_, ?_, ?_, ?_⟩
  · rw [hmap, List.length_map]
  · intro i
    rw [hmap, List.getElem?_map, Option.map_map]
    congr 1
    funext s
    exact FileAnalysis.path_ofSource parse _ s
  · intro sources' order' h' same i j hij
    exact getElem?_analyzeFilesIn_congr parse h h' same hij
  · intro k text i hki
    -- the changed project has as many tasks and the same paths
    have hmod : IsSchedule order (sources.modify k fun s => { s with text }) := by
      rw [IsSchedule, List.length_modify]
      exact h
    refine getElem?_analyzeFilesIn_congr parse hmod h (fun p => ?_) ?_
    · rw [map_path_modify_text]
    · rw [List.getElem?_modify_ne _ _ hki]
  · intro config workers manifest
    have hrange := analyzeFilesIn_eq_map parse (isSchedule_range sources)
    rw [SourceAnalysis.of, SourceAnalysis.ofIn, SourceAnalysis.ofIn, hmap, hrange]

/-- Three files, of which the last is finished first and the first last. -/
theorem analyses_independent_of_schedule_backwards :
    let sources : List SourceFile :=
      [⟨"a.js", 12, some "import './b'"⟩, ⟨"b.js", 3, none⟩, ⟨"b.js", 1, some "x"⟩]
    IsSchedule [2, 1, 0] sources ∧
      analyzeFilesIn [2, 1, 0] Script.parse sources =
        sources.map (FileAnalysis.ofSource Script.parse (isProjectFile sources)) := by
  have h : IsSchedule [2, 1, 0]
      [⟨"a.js", 12, some "import './b'"⟩, ⟨"b.js", 3, none⟩, ⟨"b.js", 1, some "x"⟩] := by
    unfold IsSchedule
    decide
  exact ⟨h, (analyses_independent_of_schedule Script.parse _ _ h).1⟩

end ScriptHealth
