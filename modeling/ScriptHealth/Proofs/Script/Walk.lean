import ScriptHealth.Script.Import
import ScriptHealth.Security.Shape
import Mathlib.Data.List.Basic

/-!
# The walk meets the nodes in prefix order

A walk that stands on a node meets that node and all nodes below it, parents first and siblings in
order, and is back on the node when it is done with its children. The number of turns on the way is
counted exactly, so the bound of the walk is never what ends it.

Imports and dangerous shapes are collected on the way. The walk passes over the nodes of other
kinds, and nothing is lost by that, since such nodes have nothing to give.

## Main definitions

* `Walker.Yields` — how many turns are left, and which nodes they meet

## Main results

* `Walker.yields_node` — what a walk meets before it is done with a node
* `Walker.yields_start` — the walk from the root ends, and meets the tree in prefix order
* `Node.walk_eq_preorder` — the walk from the root lists the tree in prefix order
* `imports_eq_filterMap` — the specifiers of a tree, node by node
* `scanTree_eq_flatMap` — the findings of a tree, node by node
-/

namespace ScriptHealth

namespace Script

theorem Node.size_pos (n : Node) : 0 < n.size := by
  cases n
  rw [Node.size]
  exact Nat.succ_pos _

namespace Walker

variable {wanted : Node → Bool} {w : Walker} {turns : Nat} {nodes : List Node}

/-- From here on the walk ends after a number of turns, and these are the wanted nodes that it
meets. The turn that finds nowhere to go counts as the last one. -/
inductive Yields (wanted : Node → Bool) : Walker → Nat → List Node → Prop
  | stop {w : Walker} (h : w.turn? = none) : Yields wanted w 1 (w.met wanted)
  | turn {w next : Walker} {turns : Nat} {nodes : List Node} (h : w.turn? = some next)
      (rest : Yields wanted next turns nodes) :
      Yields wanted w (turns + 1) (w.met wanted ++ nodes)

/-- A walk ends in one way only. -/
theorem Yields.unique (h : w.Yields wanted turns nodes) {turns' : Nat} {nodes' : List Node}
    (h' : w.Yields wanted turns' nodes') : turns = turns' ∧ nodes = nodes' := by
  induction h generalizing turns' nodes' with
  | stop hstop =>
    cases h' with
    | stop _ => exact ⟨rfl, rfl⟩
    | turn hturn _ => exact absurd (hstop.symm.trans hturn) (by simp)
  | turn hturn _ ih =>
    cases h' with
    | stop hstop => exact absurd (hstop.symm.trans hturn) (by simp)
    | turn hturn' rest' =>
      obtain rfl := Option.some.inj (hturn.symm.trans hturn')
      obtain ⟨rfl, rfl⟩ := ih rest'
      exact ⟨rfl, rfl⟩

/-- With as many turns as it takes, a run lists what the walk meets. -/
theorem Yields.run_eq (h : w.Yields wanted turns nodes) (found : List Node) :
    w.run wanted turns found = found.reverse ++ nodes := by
  have hmet (w : Walker) : (w.met wanted).reverse = w.met wanted := by
    unfold met
    split <;> rfl
  induction h generalizing found with
  | stop h => simp [run, h, hmet]
  | turn h _ ih => simp [run, h, ih, hmet]

mutual

/-- A walk that is done with a node and goes on from there has met the node and all nodes below it.
A tree takes two turns for each of its nodes, less the one that leaves its root. -/
theorem yields_node (n : Node) (trail : List (Node × List Node)) {turns : Nat}
    {nodes : List Node} : Yields wanted ⟨⟨n, trail⟩, true⟩ turns nodes →
      Yields wanted ⟨⟨n, trail⟩, false⟩ (2 * n.size - 1 + turns)
        (n.preorder.filter wanted ++ nodes) := by
  obtain ⟨kind, text?, row, field?, named, children⟩ := n
  intro h
  have hturns : 2 * (Node.mk kind text? row field? named children).size - 1 + turns =
      2 * Node.sizeAll children + turns + 1 := by
    rw [Node.size]
    omega
  have hnodes : (Node.mk kind text? row field? named children).preorder.filter wanted ++ nodes =
      met wanted ⟨⟨.mk kind text? row field? named children, trail⟩, false⟩ ++
        ((Node.preorderAll children).filter wanted ++ nodes) := by
    by_cases hwanted : wanted (.mk kind text? row field? named children) = true <;>
      simp [Node.preorder, met, hwanted]
  rw [hturns, hnodes]
  cases children with
  | nil =>
    rw [Node.sizeAll, Nat.mul_zero, Nat.zero_add]
    exact .turn rfl h
  | cons c cs => exact .turn rfl (yields_children c cs _ trail h)
termination_by sizeOf n

/-- A walk on the first of several siblings meets all of their trees, and is then done with the node
above. -/
theorem yields_children (c : Node) (cs : List Node) (above : Node)
    (trail : List (Node × List Node)) {turns : Nat} {nodes : List Node}
    (h : Yields wanted ⟨⟨above, trail⟩, true⟩ turns nodes) :
    Yields wanted ⟨⟨c, (above, cs) :: trail⟩, false⟩ (2 * Node.sizeAll (c :: cs) + turns)
      ((Node.preorderAll (c :: cs)).filter wanted ++ nodes) := by
  have hdone : Yields wanted ⟨⟨c, (above, cs) :: trail⟩, true⟩ (2 * Node.sizeAll cs + turns + 1)
      ((Node.preorderAll cs).filter wanted ++ nodes) := by
    cases cs with
    | nil =>
      rw [Node.sizeAll, Nat.mul_zero, Nat.zero_add]
      exact .turn rfl h
    | cons d ds => exact .turn rfl (yields_children d ds above trail h)
  have hturns : 2 * c.size - 1 + (2 * Node.sizeAll cs + turns + 1) =
      2 * Node.sizeAll (c :: cs) + turns := by
    have hpos := c.size_pos
    rw [Node.sizeAll]
    omega
  have hnodes : c.preorder.filter wanted ++ ((Node.preorderAll cs).filter wanted ++ nodes) =
      (Node.preorderAll (c :: cs)).filter wanted ++ nodes := by
    rw [Node.preorderAll, List.filter_append, List.append_assoc]
  rw [← hturns, ← hnodes]
  exact yields_node c _ hdone
termination_by sizeOf (c :: cs)

end

/-- The walk through a tree ends after two turns for each node, and meets the nodes in prefix
order. -/
theorem yields_start (root : Node) :
    (start root).Yields wanted (2 * root.size) (root.preorder.filter wanted) := by
  -- the last turn finds neither a sibling nor a node above
  have hlast : Yields wanted ⟨⟨root, []⟩, true⟩ 1 [] := .stop rfl
  have hwalk := yields_node root [] hlast
  have hturns : 2 * root.size - 1 + 1 = 2 * root.size := by
    have hpos := root.size_pos
    omega
  rwa [hturns, List.append_nil] at hwalk

end Walker

namespace Node

/-- The walk from the root lists the tree in prefix order. -/
theorem walk_eq_preorder (root : Node) : root.walk = root.preorder := by
  rw [walk, (Walker.yields_start root).run_eq]
  simp

/-- The walk that looks for some kinds lists the nodes of these kinds in prefix order. -/
theorem walkKinds_eq_filter (root : Node) (kinds : List String) :
    root.walkKinds kinds = root.preorder.filter fun n => kinds.contains n.kind := by
  rw [walkKinds, (Walker.yields_start root).run_eq]
  simp

end Node

/-- A node of another kind imports nothing. -/
theorem specifierOf?_eq_none {n : Node} (h : importKinds.contains n.kind = false) :
    specifierOf? n = none := by
  simp only [importKinds, List.contains_eq_mem, List.mem_cons, List.not_mem_nil, or_false,
    decide_eq_false_iff_not, not_or] at h
  simp [specifierOf?, h.1, h.2.1, h.2.2]

/-- The specifiers of a tree are those of its nodes, in prefix order. -/
theorem imports_eq_filterMap (root : Node) :
    imports root = root.preorder.filterMap specifierOf? := by
  rw [imports, Node.walkKinds_eq_filter, List.filterMap_filter]
  apply List.filterMap_congr
  intro n _
  split
  · rfl
  · rename_i h
    exact (specifierOf?_eq_none (Bool.eq_false_iff.mpr h)).symm

end Script

open Script

/-- At a node of another kind there is nothing to find. -/
theorem DangerousShape.findingsAt_eq_nil {n : Node} (path : String)
    (h : allKinds.contains n.kind = false) : findingsAt path n = [] := by
  rw [findingsAt, List.map_eq_nil_iff, List.filter_eq_nil_iff]
  intro s hs hshape
  rw [Bool.and_eq_true, List.contains_iff_mem] at hshape
  have hkind : n.kind ∈ allKinds := List.mem_flatMap.mpr ⟨s, hs, hshape.1⟩
  rw [List.contains_eq_mem, decide_eq_false_iff_not] at h
  exact h hkind

/-- The findings of a tree are those at its nodes, in prefix order. -/
theorem scanTree_eq_flatMap (root : Node) (path : String) :
    scanTree root path = root.preorder.flatMap (DangerousShape.findingsAt path) := by
  rw [scanTree, Node.walkKinds_eq_filter]
  induction root.preorder with
  | nil => rfl
  | cons n ns ih =>
    rw [List.filter_cons, List.flatMap_cons]
    split
    · rw [List.flatMap_cons, ih]
    · rename_i h
      rw [ih, DangerousShape.findingsAt_eq_nil path (Bool.eq_false_iff.mpr h), List.nil_append]

end ScriptHealth
