import ScriptHealth.Proofs.Script.Walk

/-!
# The places of a tree

A place in a tree is the list of steps that lead to it from the root: for each node on the way, which
of its children is next. Equal nodes may stand at different places, so it is the places that tell
the nodes of a tree apart. In lexicographic order a place comes before all places below it, and
these come before the places of later siblings. The walk through a tree goes through all of its
places in this order, and ends.

## Main definitions

* `Node.at?` — the node at a place
* `Node.InPrefixOrder` — a list of nodes that goes through all places, in order

## Main results

* `Node.inPrefixOrder_preorder` — the nodes of a tree, place by place
* `walk_ends_in_prefix_order` — what the walk does, and what is collected on it
-/

namespace ScriptHealth

namespace Script

namespace Node

/-- The node at a place: each step of the place goes down to one of the children. -/
def at? : Node → List Nat → Option Node
  | n, [] => some n
  | n, i :: place => n.children[i]?.bind fun c => c.at? place

/-- The node at a place below several siblings, the first step of which picks the sibling. -/
def below? (siblings : List Node) : List Nat → Option Node
  | [] => none
  | i :: place => siblings[i]?.bind fun c => c.at? place

/-- A place below siblings starts with the step that picks one of them. -/
theorem exists_cons_of_below? {siblings : List Node} {place : List Nat}
    (h : (below? siblings place).isSome = true) : ∃ i rest, place = i :: rest := by
  cases place with
  | nil => cases h
  | cons i rest => exact ⟨i, rest, rfl⟩

/-- A list of nodes goes through all places that there are, each once and in lexicographic order. -/
def InPrefixOrder (node? : List Nat → Option Node) (nodes : List Node) : Prop :=
  ∃ places : List (List Nat), places.Pairwise (· < ·) ∧
    (∀ place, place ∈ places ↔ (node? place).isSome = true) ∧ nodes = places.filterMap node?

/-- The place of a node comes before all places below it. -/
theorem inPrefixOrder_cons_below {n : Node} {nodes : List Node}
    (h : InPrefixOrder (below? n.children) nodes) : InPrefixOrder n.at? (n :: nodes) := by
  obtain ⟨places, hsorted, hmem, rfl⟩ := h
  have hcons : ∀ place ∈ places, ∃ i rest, place = i :: rest :=
    fun place hplace => exists_cons_of_below? ((hmem place).mp hplace)
  refine ⟨[] :: places, ?_, fun place => ?_, ?_⟩
  · refine List.pairwise_cons.mpr ⟨fun place hplace => ?_, hsorted⟩
    obtain ⟨i, rest, rfl⟩ := hcons place hplace
    exact List.nil_lt_cons i rest
  · cases place with
    | nil => simp [at?]
    | cons i rest => simpa [at?, below?] using hmem (i :: rest)
  · have hsame : places.filterMap n.at? = places.filterMap (below? n.children) := by
      apply List.filterMap_congr
      intro place hplace
      obtain ⟨i, rest, rfl⟩ := hcons place hplace
      rfl
    rw [List.filterMap_cons, hsame]
    rfl

/-- The same place below the next sibling. -/
def nextPlace : List Nat → List Nat
  | [] => []
  | i :: place => (i + 1) :: place

theorem nextPlace_eq_succ_iff {q place : List Nat} {i : Nat} :
    nextPlace q = (i + 1) :: place ↔ q = i :: place := by
  cases q <;> simp [nextPlace]

theorem nextPlace_ne_zero (q place : List Nat) : nextPlace q ≠ 0 :: place := by
  cases q <;> simp [nextPlace]

/-- The places below a node come before those of its later siblings. -/
theorem inPrefixOrder_append {c : Node} {cs xs ys : List Node} (hc : InPrefixOrder c.at? xs)
    (hcs : InPrefixOrder (below? cs) ys) : InPrefixOrder (below? (c :: cs)) (xs ++ ys) := by
  obtain ⟨ps, hps, hmemPs, rfl⟩ := hc
  obtain ⟨qs, hqs, hmemQs, rfl⟩ := hcs
  have hcons : ∀ q ∈ qs, ∃ i place, q = i :: place :=
    fun q hq => exists_cons_of_below? ((hmemQs q).mp hq)
  refine ⟨ps.map (0 :: ·) ++ qs.map nextPlace, ?_, fun place => ?_, ?_⟩
  · rw [List.pairwise_append, List.pairwise_map, List.pairwise_map]
    refine ⟨hps.imp fun h => List.cons_lt_cons_iff.mpr (Or.inr ⟨rfl, h⟩), ?_, ?_⟩
    · refine hqs.imp_of_mem fun {q r} hq hr hlt => ?_
      obtain ⟨i, q, rfl⟩ := hcons q hq
      obtain ⟨j, r, rfl⟩ := hcons r hr
      simpa [nextPlace, List.cons_lt_cons_iff] using hlt
    · intro p hp q hq
      obtain ⟨p, -, rfl⟩ := List.mem_map.mp hp
      obtain ⟨q, hmem, rfl⟩ := List.mem_map.mp hq
      obtain ⟨i, q, rfl⟩ := hcons q hmem
      exact List.cons_lt_cons_iff.mpr (Or.inl (Nat.succ_pos i))
  · rw [List.mem_append, List.mem_map, List.mem_map]
    match place with
    | [] =>
      have hnil : ∀ q ∈ qs, nextPlace q ≠ [] := by
        intro q hq
        obtain ⟨i, q, rfl⟩ := hcons q hq
        simp [nextPlace]
      simpa [below?] using hnil
    | 0 :: place => simpa [below?, nextPlace_ne_zero] using hmemPs place
    | (i + 1) :: place => simpa [below?, nextPlace_eq_succ_iff] using hmemQs (i :: place)
  · have hsame : qs.filterMap (below? (c :: cs) ∘ nextPlace) = qs.filterMap (below? cs) := by
      apply List.filterMap_congr
      intro q hq
      obtain ⟨i, place, rfl⟩ := hcons q hq
      rfl
    rw [List.filterMap_append, List.filterMap_map, List.filterMap_map, hsame]
    rfl

mutual

/-- The nodes of a tree, place by place. -/
theorem inPrefixOrder_preorder (n : Node) : InPrefixOrder n.at? n.preorder := by
  obtain ⟨kind, text?, row, field?, named, children⟩ := n
  exact inPrefixOrder_cons_below (inPrefixOrder_preorderAll children)

/-- The nodes of several trees, place by place. -/
theorem inPrefixOrder_preorderAll (cs : List Node) : InPrefixOrder (below? cs) (preorderAll cs) := by
  cases cs with
  | nil => exact ⟨[], .nil, fun place => by cases place <;> simp [below?], rfl⟩
  | cons c cs => exact inPrefixOrder_append (inPrefixOrder_preorder c) (inPrefixOrder_preorderAll cs)

end

theorem preorder_eq_cons (n : Node) : n.preorder = n :: n.children.flatMap preorder := by
  have hall (cs : List Node) : preorderAll cs = cs.flatMap preorder := by
    induction cs with
    | nil => rfl
    | cons c cs ih => rw [preorderAll, ih, List.flatMap_cons]
  obtain ⟨kind, text?, row, field?, named, children⟩ := n
  rw [preorder, hall]
  rfl

end Node

end Script

open Script

/-- **The walk.** Through every tree the walk ends, after two turns for each node, and it has then
met the nodes at all places of the tree, each once and parents before children before later
siblings. With a choice of nodes it lists what it chooses of these, and so imports and findings are
those of the root followed by those of its children, tree after tree. -/
theorem walk_ends_in_prefix_order (root : Node) :
    (∀ wanted turns nodes, (Walker.start root).Yields wanted turns nodes ↔
      turns = 2 * root.size ∧ nodes = root.walk.filter wanted) ∧
      Node.InPrefixOrder root.at? root.walk ∧
      (∀ kinds, root.walkKinds kinds = root.walk.filter fun n => kinds.contains n.kind) ∧
      imports root = (specifierOf? root).toList ++ root.children.flatMap imports ∧
      ∀ path, scanTree root path =
        DangerousShape.findingsAt path root ++ root.children.flatMap (scanTree · path) := by
  have hwalk := root.walk_eq_preorder
  refine ⟨fun wanted turns nodes => ⟨fun h => ?_, ?_⟩, ?_, fun kinds => ?_, ?_, fun path => ?_⟩
  · rw [hwalk]
    exact h.unique (Walker.yields_start root)
  · rintro ⟨rfl, rfl⟩
    rw [hwalk]
    exact Walker.yields_start root
  · rw [hwalk]
    exact root.inPrefixOrder_preorder
  · rw [hwalk, root.walkKinds_eq_filter]
  · have himports : imports = fun n => n.preorder.flatMap fun m => (specifierOf? m).toList := by
      funext n
      rw [imports_eq_filterMap, List.filterMap_eq_flatMap_toList]
    simp only [himports, root.preorder_eq_cons, List.flatMap_cons, List.flatMap_assoc]
  · simp only [scanTree_eq_flatMap, root.preorder_eq_cons, List.flatMap_cons, List.flatMap_assoc]

end ScriptHealth
