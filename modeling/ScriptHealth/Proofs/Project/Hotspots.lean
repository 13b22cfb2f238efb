import ScriptHealth.Project.Tool
import ScriptHealth.Score.Basic
import ScriptHealth.Proofs.Data.Sort
import ScriptHealth.Proofs.Data.Tally
import ScriptHealth.Proofs.Graph.Closure
import ScriptHealth.Proofs.Number.Quantity
import Mathlib.Data.Finset.Card

/-!
# The hotspots of a history

The log of a history is counted line by line, the counts are sorted, and the limit cuts the list.
This file says which files the list has in terms of the log alone: the most committed ones, and
among equals those that the log names first.

A hotspot is active when its commits are above a threshold. Since the whole list is sorted before it
is cut, a file that is not active never takes the place of one that is, so the score sees as many
active hotspots as the limit allows.

## Main definitions

* `Hotspot.filesOf`, `Hotspot.mentions` — the files of a log and how often it names them
* `Hotspot.Ranking` — a list of the most committed files

## Main results

* `Hotspot.rank_ranking` — the listed files are the most committed ones
* `Hotspot.countP_rank` — the cut leaves out a file above a threshold only if all listed ones are
* `history_lists_most_committed` — the hotspots of a history, and those that the score sees
-/

namespace ScriptHealth

namespace Hotspot

/-! ### The files of a log -/

/-- The lines of a log without the blanks around them. -/
def trimmedLines (log : String) : List String :=
  (Text.lines log.toList).map fun line => String.ofList (Text.trim line)

/-- The files of a log: its different lines that are not blank. -/
def filesOf (log : String) : Finset String := (trimmedLines log).toFinset.erase ""

/-- The number of lines of a log that name a file. -/
def mentions (log file : String) : Nat := (trimmedLines log).count file

theorem namedFiles_eq_filter (log : String) :
    namedFiles log = (trimmedLines log).filter (· ≠ "") := by
  rw [namedFiles, trimmedLines, List.filter_map, List.filterMap_map, ← List.filterMap_eq_map,
    List.filterMap_filter]
  congr 1
  funext line
  by_cases h : Text.trim line = []
  · simp [h]
  · simp [h]

theorem mem_namedFiles_iff {log file : String} : file ∈ namedFiles log ↔ file ∈ filesOf log := by
  rw [namedFiles_eq_filter, filesOf, Finset.mem_erase, List.mem_toFinset, List.mem_filter,
    decide_eq_true_eq, and_comm]

theorem count_namedFiles {log file : String} (h : file ∈ filesOf log) :
    (namedFiles log).count file = mentions log file := by
  rw [namedFiles_eq_filter, mentions, List.count_filter]
  exact decide_eq_true (Finset.mem_erase.mp h).1

/-- Leaving out other items changes nothing in which of two items comes first. -/
theorem idxOf_lt_of_filter {p : String → Bool} {a b : String} (ha : p a = true) (hb : p b = true)
    {items : List String} (h : (items.filter p).idxOf a < (items.filter p).idxOf b) :
    items.idxOf a < items.idxOf b := by
  induction items with
  | nil => exact h
  | cons x items ih =>
    rw [List.idxOf_cons, List.idxOf_cons]
    by_cases hx : p x = true
    · -- both lists begin with the same item, so the question moves on to the rest
      rw [List.filter_cons_of_pos hx, List.idxOf_cons, List.idxOf_cons] at h
      grind
    · -- the item is left out, so it is neither of the two
      rw [List.filter_cons_of_neg hx] at h
      have hxa : (x == a) = false := beq_eq_false_iff_ne.mpr fun e => hx (e ▸ ha)
      have hxb : (x == b) = false := beq_eq_false_iff_ne.mpr fun e => hx (e ▸ hb)
      simp only [hxa, hxb]
      exact Nat.succ_lt_succ (ih h)

/-! ### All files, most commits first -/

/-- All files of a log, most commits first. -/
def ranked (log : String) : List Hotspot :=
  ((count log).mergeSort fun a b => b.2 ≤ a.2).map fun e => ⟨e.1, e.2⟩

theorem rank_eq_take (limit : Nat) (log : String) : rank limit log = (ranked log).take limit := by
  rw [rank, capped_of_nonneg (Int.natCast_nonneg limit), Int.toNat_natCast, List.map_take]
  rfl

theorem count_eq_tally (log : String) : count log = OrderedMap.tally (namedFiles log) := rfl

theorem mem_ranked_iff {log : String} {h : Hotspot} :
    h ∈ ranked log ↔ h.file ∈ filesOf log ∧ h.commits = mentions log h.file := by
  have hpair : h ∈ ranked log ↔ (h.file, h.commits) ∈ count log := by
    cases h
    simp [ranked]
  rw [hpair, count_eq_tally, OrderedMap.mem_tally_iff, mem_namedFiles_iff]
  exact and_congr_right fun hfile => by rw [count_namedFiles hfile]

theorem nodup_files_ranked (log : String) : ((ranked log).map (·.file)).Nodup := by
  have hperm := (List.mergeSort_perm (count log) fun a b => b.2 ≤ a.2).map (·.1)
  rw [ranked, List.map_map]
  exact hperm.nodup_iff.mpr (OrderedMap.nodup_keys_tally (namedFiles log))

theorem pairwise_keys_count (log : String) :
    (count log).keys.Pairwise fun a b =>
      (trimmedLines log).idxOf a < (trimmedLines log).idxOf b := by
  rw [count_eq_tally]
  refine (OrderedMap.pairwise_keys_tally (namedFiles log)).imp_of_mem fun {a b} ha hb hlt => ?_
  rw [OrderedMap.mem_keys_tally, namedFiles_eq_filter, List.mem_filter] at ha hb
  rw [namedFiles_eq_filter] at hlt
  exact idxOf_lt_of_filter ha.2 hb.2 hlt

theorem pairwise_ranked (log : String) : (ranked log).Pairwise fun a b => b.commits ≤ a.commits :=
  List.pairwise_map.mpr (Sort.pairwise_falling (·.2) (count log))

/-- Files with equal commits stand in the order in which the log first names them. -/
theorem pairwise_ranked_ties (log : String) :
    (ranked log).Pairwise fun a b =>
      a.commits = b.commits →
        (trimmedLines log).idxOf a.file < (trimmedLines log).idxOf b.file :=
  List.pairwise_map.mpr
    (Sort.pairwise_falling_ties (·.2) (List.pairwise_map.mp (pairwise_keys_count log)))

/-- The files that pass a test for their commits, counted in the list and in the log. -/
theorem countP_ranked (log : String) (p : Nat → Bool) :
    (ranked log).countP (fun h => p h.commits) =
      ((filesOf log).filter fun file => p (mentions log file)).card := by
  -- each file is listed once, so the hotspots that pass are as many as their names
  have hnodup : (((ranked log).filter fun h => p h.commits).map (·.file)).Nodup :=
    (nodup_files_ranked log).sublist (List.filter_sublist.map _)
  rw [List.countP_eq_length_filter, ← List.length_map (·.file),
    ← List.toFinset_card_of_nodup hnodup]
  congr 1
  ext file
  simp only [List.mem_toFinset, List.mem_map, List.mem_filter, Finset.mem_filter, mem_ranked_iff]
  constructor
  · rintro ⟨h, ⟨⟨hfile, hcommits⟩, hp⟩, rfl⟩
    exact ⟨hfile, hcommits ▸ hp⟩
  · rintro ⟨hfile, hp⟩
    exact ⟨⟨file, mentions log file⟩, ⟨⟨hfile, rfl⟩, hp⟩, rfl⟩

theorem length_ranked (log : String) : (ranked log).length = (filesOf log).card := by
  simpa using countP_ranked log fun _ => true

/-! ### The cut -/

/-- A list of the most committed files of a log, as many as a limit allows: the listed files are
different, each with the number of lines that name it, most commits first and otherwise in the order
in which the log first names them. A file that is left out has no more commits than any listed one.
-/
structure Ranking (log : String) (limit : Nat) (hotspots : List Hotspot) : Prop where
  length_eq : hotspots.length = min limit (filesOf log).card
  nodup : (hotspots.map (·.file)).Nodup
  mem_filesOf : ∀ h ∈ hotspots, h.file ∈ filesOf log
  commits_eq : ∀ h ∈ hotspots, h.commits = mentions log h.file
  falling : hotspots.Pairwise fun a b => b.commits ≤ a.commits
  ties : hotspots.Pairwise fun a b =>
    a.commits = b.commits → (trimmedLines log).idxOf a.file < (trimmedLines log).idxOf b.file
  left_out : ∀ file ∈ filesOf log, file ∉ hotspots.map (·.file) →
    ∀ h ∈ hotspots, mentions log file ≤ h.commits

/-- Where a listed file fails a test for many commits, every file that passes it is listed. -/
theorem Ranking.mem_of_passes {log : String} {limit : Nat} {hotspots : List Hotspot}
    (hr : Ranking log limit hotspots) {p : Nat → Bool}
    (hp : ∀ m n, m ≤ n → p m = true → p n = true) {h : Hotspot} (hh : h ∈ hotspots)
    (hfails : p h.commits = false) {file : String} (hfile : file ∈ filesOf log)
    (hpasses : p (mentions log file) = true) : file ∈ hotspots.map (·.file) := by
  by_contra hout
  have hle := hr.left_out file hfile hout h hh
  rw [hp _ _ hle hpasses] at hfails
  cases hfails

variable (limit : Nat) (log : String)

/-- What stands behind the cut has no more commits than what stands before it. -/
theorem commits_drop_le {a b : Hotspot} (ha : a ∈ (ranked log).take limit)
    (hb : b ∈ (ranked log).drop limit) : b.commits ≤ a.commits := by
  have hsorted := pairwise_ranked log
  rw [← List.take_append_drop limit (ranked log), List.pairwise_append] at hsorted
  exact hsorted.2.2 a ha b hb

/-- The ranked list has the most committed files. -/
theorem rank_ranking : Ranking log limit (rank limit log) := by
  rw [rank_eq_take]
  have hsublist := List.take_sublist limit (ranked log)
  have hlisted {h : Hotspot} (hh : h ∈ (ranked log).take limit) :=
    mem_ranked_iff.mp (hsublist.mem hh)
  exact {
    length_eq := by rw [List.length_take, length_ranked]
    nodup := (nodup_files_ranked log).sublist (hsublist.map _)
    mem_filesOf := fun h hh => (hlisted hh).1
    commits_eq := fun h hh => (hlisted hh).2
    falling := (pairwise_ranked log).sublist hsublist
    ties := (pairwise_ranked_ties log).sublist hsublist
    left_out := by
      intro file hfile hout h hh
      have hmem : (⟨file, mentions log file⟩ : Hotspot) ∈ ranked log :=
        mem_ranked_iff.mpr ⟨hfile, rfl⟩
      rw [← List.take_append_drop limit (ranked log), List.mem_append] at hmem
      -- the file is listed with all the others, so it stands behind the cut
      rcases hmem with hkept | hcut
      · exact absurd (List.mem_map.mpr ⟨_, hkept, rfl⟩) hout
      · exact commits_drop_le limit log hh hcut
  }

/-- The cut leaves out a file that passes a test for many commits only if all listed files pass. -/
theorem countP_rank {p : Nat → Bool} (hp : ∀ m n, m ≤ n → p m = true → p n = true) :
    (rank limit log).countP (fun h => p h.commits) =
      min limit ((filesOf log).filter fun file => p (mentions log file)).card := by
  have hfront : (ranked log).Pairwise fun a b => p b.commits = true → p a.commits = true :=
    (pairwise_ranked log).imp fun hle => hp _ _ hle
  rw [rank_eq_take, Sort.countP_take hfront, countP_ranked]

end Hotspot

/-- When both questions about a history are answered, its hotspots are the most committed files of
the log, as many as the limit allows. So for every threshold the list has as many files above it as
the limit allows, and so has the score for the threshold of its weights: an inactive file is listed
only if every active one is. -/
theorem history_lists_most_committed (root : String) (limit : Nat) (timeout : Value)
    (tools : Tools) (folder notes log errors : String) (records : List Log.Record) :
    ∃ hotspots : List Hotspot,
      Project.history root (.ok limit) timeout
          { tools with
            repositoryCheck := .finished 0 folder notes, log := .finished 0 log errors } records =
        .ok ((hotspots, [Project.repositoryCall root, Project.logCall root timeout]), records) ∧
      Hotspot.Ranking log limit hotspots ∧
      (∀ t : Int, hotspots.countP (fun h => t < h.commits) =
        min limit ((Hotspot.filesOf log).filter fun file => t < Hotspot.mentions log file).card) ∧
      ∀ (s : Signals) (w : Weights),
        { s with hotspots }.activeHotspots w =
          min limit ((Hotspot.filesOf log).filter fun file =>
            w.hotspotThreshold.lt (.int (Hotspot.mentions log file))).card ∧
        ∀ h ∈ hotspots, w.hotspotThreshold.lt (.int h.commits) = false →
          ∀ file ∈ Hotspot.filesOf log,
            w.hotspotThreshold.lt (.int (Hotspot.mentions log file)) = true →
              file ∈ hotspots.map (·.file) := by
  have hranking := Hotspot.rank_ranking limit log
  refine ⟨Hotspot.rank limit log, rfl, hranking, fun t => ?_, fun s w => ?_⟩
  · have hp (m n : Nat) (h : m ≤ n) : decide (t < m) = true → decide (t < n) = true := by
      rw [decide_eq_true_eq, decide_eq_true_eq]
      omega
    simpa only [decide_eq_true_eq] using Hotspot.countP_rank limit log hp
  · have hp (m n : Nat) (h : m ≤ n) : w.hotspotThreshold.lt (.int m) = true →
        w.hotspotThreshold.lt (.int n) = true :=
      Quantity.lt_int_mono (Int.ofNat_le.mpr h)
    refine ⟨Hotspot.countP_rank limit log hp, ?_⟩
    intro h hh hinactive file hfile hactive
    exact hranking.mem_of_passes hp hh hinactive hfile hactive

/-- Two commits of one file, and one commit of each of two others. -/
def tiedLog : String := "a.js\n\n  b.js\nc.js\n\nb.js\n"

/-- Two of the three files are listed. Only one file has more than one commit, so an inactive file
is listed beside it, and the active one is not lost. -/
theorem history_lists_most_committed_tiedLog :
    ∃ hotspots : List Hotspot,
      (Project.history "/p" (.ok 2) (.int 30)
          { repositoryCheck := .finished 0 ".git" "", log := .finished 0 tiedLog "" } []).map
            (·.1.1) =
        .ok hotspots ∧
      hotspots.length = 2 ∧
      ({ hotspots } : Signals).activeHotspots { hotspotThreshold := .int 1 } = 1 ∧
      "b.js" ∈ hotspots.map (·.file) := by
  obtain ⟨hotspots, hrun, hranking, -, hscore⟩ := history_lists_most_committed "/p" 2 (.int 30)
    {} ".git" "" tiedLog "" []
  obtain ⟨hactive, hlisted⟩ := hscore {} { hotspotThreshold := .int 1 }
  have hlength : hotspots.length = 2 := hranking.length_eq.trans (by decide +kernel)
  have hone := hactive.trans (show _ = 1 by decide +kernel)
  -- two hotspots are listed and only one of them is active
  have hinactive : ∃ h ∈ hotspots, (Quantity.int 1).lt (.int h.commits) = false := by
    by_contra! hall
    simp only [ne_eq, Bool.not_eq_false] at hall
    have hboth := (List.countP_eq_length.mpr hall).symm.trans hone
    omega
  obtain ⟨h, hh, hfails⟩ := hinactive
  refine ⟨hotspots, congrArg (Except.map (·.1.1)) hrun, hlength, hone, ?_⟩
  exact hlisted h hh hfails "b.js" (by decide +kernel) (by decide +kernel)

end ScriptHealth
