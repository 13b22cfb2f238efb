import ScriptHealth.Proofs.Script.Walk

/-!
# Dangerous shapes exclude one another

A node is looked at only if its kind is among the kinds of some shape, and a shape looks only at
nodes of its own kinds. Neither filter loses anything: a shape that recognises a node names its kind.
No node has two shapes, since the kind of a node and the name that it calls leave at most one. So the
findings do not depend on the order in which the shapes are tried.

The fields of a node may be missing in a broken tree. The shapes are therefore read once more here,
by reads that fail at a missing node, in the order in which the shapes test what is there. These
reads never fail, and what they give is what the shapes decide.

## Main definitions

* `DangerousShape.soleShape?` — the only shape that a node can have
* `DangerousShape.scanWith`, `DangerousShape.scanAll` — scans by a list of shapes, with and without
  the two filters
* `DangerousShape.readings` — the shapes by reads that can fail

## Main results

* `DangerousShape.kind_and_soleShape?_of_check` — what a shape says of a node
* `DangerousShape.length_filter_check_le_one` — a node has one shape at most
* `DangerousShape.scanWith_eq_scanAll` — the two filters lose nothing
* `DangerousShape.readings_succeed` — no read meets a missing node
* `DangerousShape.scanTree_needs_no_filter` — scans of all trees
-/

namespace ScriptHealth

open Script

namespace DangerousShape

variable {n : Node} {names : List String} {s : DangerousShape}

/-! ### What a shape says of a node -/

theorem isNameIn_iff {callee : Option Node} : isNameIn names callee = true ↔
    ∃ c, callee = some c ∧ c.kind = "identifier" ∧ c.text ∈ names := by
  cases callee <;> simp [isNameIn]

/-- Only a member expression has a property. -/
theorem exists_of_memberProperty {callee : Option Node} (h : memberProperty callee ≠ "") :
    ∃ c, callee = some c ∧ c.kind = "member_expression" := by
  cases callee with
  | none => exact absurd rfl h
  | some c =>
    refine ⟨c, rfl, ?_⟩
    by_contra hkind
    exact h (if_neg hkind)

/-- Only a call calls something. -/
theorem kind_of_callee? {c : Node} (h : callee? n = some c) : n.kind = "call_expression" := by
  by_contra hkind
  rw [callee?, if_neg hkind] at h
  cases h

/-- The name that a node calls: that of a function, or of a property. -/
def calledName (n : Node) : String :=
  (callee? n).elim "" fun c =>
    if c.kind = "identifier" then c.text else memberProperty (some c)

/-- A called function is called by its name. -/
theorem calledName_of_isNameIn (h : isNameIn names (callee? n) = true) :
    n.kind = "call_expression" ∧ calledName n ∈ names := by
  obtain ⟨c, hc, hkind, htext⟩ := isNameIn_iff.mp h
  refine ⟨kind_of_callee? hc, ?_⟩
  rwa [calledName, hc, Option.elim_some, if_pos hkind]

/-- A called property is called by its name. -/
theorem calledName_of_memberProperty (h : memberProperty (callee? n) ≠ "") :
    n.kind = "call_expression" ∧ calledName n = memberProperty (callee? n) := by
  obtain ⟨c, hc, hkind⟩ := exists_of_memberProperty h
  have hidentifier : c.kind ≠ "identifier" := by
    rw [hkind]
    decide
  refine ⟨kind_of_callee? hc, ?_⟩
  rw [calledName, hc, Option.elim_some, if_neg hidentifier]

/-- The shapes of calls, by the name that is called. -/
def callShapes : List (String × String) :=
  [("eval", "eval() Usage"), ("Function", "Function() Constructor"),
   ("exec", "child_process exec()"), ("execSync", "child_process exec()"),
   ("write", "document.write()")]

/-- The shapes of other nodes, by their kind. -/
def kindShapes : List (String × String) :=
  [("new_expression", "Function() Constructor"), ("assignment_expression", "innerHTML Assignment"),
   ("augmented_assignment_expression", "innerHTML Assignment"),
   ("jsx_attribute", "dangerouslySetInnerHTML")]

/-- The name of the only shape that a node can have. -/
def soleShape? (n : Node) : Option String :=
  if n.kind = "call_expression" then callShapes.lookup (calledName n)
  else kindShapes.lookup n.kind

theorem soleShape?_of_call (h : n.kind = "call_expression" ∧ calledName n ∈ names) {name : String}
    (hname : ∀ called ∈ names, callShapes.lookup called = some name) :
    soleShape? n = some name := by
  rw [soleShape?, if_pos h.1]
  exact hname _ h.2

theorem soleShape?_of_kind (h : n.kind ∈ names) {name : String}
    (hname : ∀ kind ∈ names, kind ≠ "call_expression" ∧ kindShapes.lookup kind = some name) :
    soleShape? n = some name := by
  obtain ⟨hcall, hlookup⟩ := hname _ h
  rw [soleShape?, if_neg hcall, hlookup]

/-- A call that runs a command goes by one of the names for that. -/
theorem calledName_of_isExecCall (h : isExecCall n = true) :
    n.kind = "call_expression" ∧ calledName n ∈ execNames := by
  rw [isExecCall, Bool.or_eq_true] at h
  rcases h with hname | hproperty
  · exact calledName_of_isNameIn hname
  · rw [List.contains_iff_mem] at hproperty
    have hne : memberProperty (callee? n) ≠ "" := by
      intro hempty
      rw [hempty] at hproperty
      exact absurd hproperty (by decide)
    obtain ⟨hkind, hcalled⟩ := calledName_of_memberProperty hne
    exact ⟨hkind, hcalled ▸ hproperty⟩

/-- A call that writes into the document goes by the name of the property. -/
theorem calledName_of_isDocumentWrite (h : isDocumentWrite n = true) :
    n.kind = "call_expression" ∧ calledName n ∈ ["write"] := by
  have hproperty : memberProperty (callee? n) = "write" := by
    unfold isDocumentWrite at h
    split at h
    · cases h
    · rename_i c hc
      rw [hc]
      simpa using (Bool.and_eq_true_iff.mp h).1
  have hne : memberProperty (callee? n) ≠ "" := by
    rw [hproperty]
    decide
  obtain ⟨hkind, hcalled⟩ := calledName_of_memberProperty hne
  exact ⟨hkind, by rw [hcalled, hproperty]; exact List.mem_singleton_self _⟩

/-- A shape that recognises a node names its kind, and is the only one that the node can have. -/
theorem kind_and_soleShape?_of_check (hs : s ∈ catalog) (h : s.check n = true) :
    n.kind ∈ s.kinds ∧ soleShape? n = some s.name := by
  simp only [catalog, List.mem_cons, List.not_mem_nil, or_false] at hs
  rcases hs with rfl | rfl | rfl | rfl | rfl | rfl
  · have hcalled := calledName_of_isNameIn h
    exact ⟨by simp [hcalled.1], soleShape?_of_call hcalled (by decide)⟩
  · dsimp only at h
    unfold isFunctionConstructor at h
    split at h
    · rename_i hkind
      exact ⟨by simp [hkind], soleShape?_of_kind (List.mem_singleton.mpr hkind) (by decide)⟩
    · have hcalled := calledName_of_isNameIn h
      exact ⟨by simp [hcalled.1], soleShape?_of_call hcalled (by decide)⟩
  · have hcalled := calledName_of_isExecCall h
    exact ⟨by simp [hcalled.1], soleShape?_of_call hcalled (by decide)⟩
  · have hkind : n.kind ∈ ["assignment_expression", "augmented_assignment_expression"] := by
      simpa using (Bool.and_eq_true_iff.mp h).1
    exact ⟨hkind, soleShape?_of_kind hkind (by decide)⟩
  · have hkind : n.kind ∈ ["jsx_attribute"] := by
      simpa using (Bool.and_eq_true_iff.mp h).1
    exact ⟨hkind, soleShape?_of_kind hkind (by decide)⟩
  · have hcalled := calledName_of_isDocumentWrite h
    exact ⟨by simp [hcalled.1], soleShape?_of_call hcalled (by decide)⟩

/-! ### One shape at most -/

/-- A node has one shape at most. -/
theorem length_filter_check_le_one (n : Node) : (catalog.filter (·.check n)).length ≤ 1 := by
  have hnodup : ((catalog.filter (·.check n)).map (·.name)).Nodup := by
    have hnames : (catalog.map (·.name)).Nodup := by decide
    exact hnames.sublist (List.filter_sublist.map _)
  -- all shapes of the node have the name of its only shape
  have hsame : ∀ name ∈ (catalog.filter (·.check n)).map (·.name),
      name = (soleShape? n).getD "" := by
    intro name hname
    obtain ⟨s, hs, rfl⟩ := List.mem_map.mp hname
    obtain ⟨hs, hcheck⟩ := List.mem_filter.mp hs
    rw [(kind_and_soleShape?_of_check hs hcheck).2, Option.getD_some]
  rw [List.eq_replicate_of_mem hsame, List.nodup_replicate, List.length_map] at hnodup
  exact hnodup

/-- The shapes of a node do not depend on the order in which they are tried. -/
theorem filter_check_perm {shapes : List DangerousShape} (h : shapes.Perm catalog) (n : Node) :
    shapes.filter (·.check n) = catalog.filter (·.check n) := by
  have hperm := h.filter (·.check n)
  have hlength := length_filter_check_le_one n
  generalize catalog.filter (·.check n) = found at hperm hlength ⊢
  cases found with
  | nil => exact List.perm_nil.mp hperm
  | cons s rest =>
    obtain rfl : rest = [] := by simpa using hlength
    exact List.perm_singleton.mp hperm

/-! ### Scans without filters -/

/-- The findings of a tree by a list of shapes: of the nodes of their kinds, each shape looks at
those of its own kinds. -/
def scanWith (shapes : List DangerousShape) (root : Node) (path : String) : List Finding :=
  (root.walkKinds (shapes.flatMap (·.kinds))).flatMap fun n =>
    (shapes.filter fun s => s.kinds.contains n.kind && s.check n).map (finding path n)

/-- The findings of a tree if every shape looks at every node. -/
def scanAll (shapes : List DangerousShape) (root : Node) (path : String) : List Finding :=
  root.walk.flatMap fun n => (shapes.filter (·.check n)).map (finding path n)

theorem scanTree_eq_scanWith (root : Node) (path : String) :
    scanTree root path = scanWith catalog root path := rfl

/-- A shape that recognises a node looks at its kind, so its own kinds need no test. -/
theorem filter_kinds_check {shapes : List DangerousShape} (h : shapes ⊆ catalog) (n : Node) :
    (shapes.filter fun s => s.kinds.contains n.kind && s.check n) = shapes.filter (·.check n) := by
  apply List.filter_congr
  intro s hs
  cases hcheck : s.check n with
  | false => rw [Bool.and_false]
  | true =>
    rw [Bool.and_true, List.contains_iff_mem]
    exact (kind_and_soleShape?_of_check (h hs) hcheck).1

/-- At a node of no shape's kind there is nothing to find. -/
theorem filter_check_eq_nil {shapes : List DangerousShape} (h : shapes ⊆ catalog)
    (hkind : n.kind ∉ shapes.flatMap (·.kinds)) : shapes.filter (·.check n) = [] := by
  rw [List.filter_eq_nil_iff]
  intro s hs hcheck
  exact hkind (List.mem_flatMap.mpr ⟨s, hs, (kind_and_soleShape?_of_check (h hs) hcheck).1⟩)

/-- The two filters lose nothing. -/
theorem scanWith_eq_scanAll {shapes : List DangerousShape} (h : shapes ⊆ catalog) (root : Node)
    (path : String) : scanWith shapes root path = scanAll shapes root path := by
  unfold scanWith scanAll
  rw [root.walkKinds_eq_filter, root.walk_eq_preorder]
  simp only [filter_kinds_check h]
  induction root.preorder with
  | nil => rfl
  | cons n ns ih =>
    rw [List.filter_cons, List.flatMap_cons, ← ih]
    split
    · rw [List.flatMap_cons]
    · rename_i hkind
      rw [filter_check_eq_nil h (mt List.contains_iff_mem.mpr hkind), List.map_nil, List.nil_append]

/-! ### Reads that can fail -/

/-- A part of a node that may be missing. There is nothing to read of a missing node. -/
def read {α : Type} (part : Node → α) (n : Option Node) : Option α := n.map part

/-- The text of a node that may be missing, which is empty then. -/
def textOf (n : Option Node) : String := (n.map Node.text).getD ""

/-- `isNameIn`, by reads that can fail. -/
def readNameIn (names : List String) (n : Option Node) : Option Bool :=
  if n.isNone then some false
  else do
    let kind ← read Node.kind n
    return kind == "identifier" && names.contains (textOf n)

/-- `memberProperty`, by reads that can fail. -/
def readMemberProperty (n : Option Node) : Option String :=
  if n.isNone then some ""
  else do
    let kind ← read Node.kind n
    if kind != "member_expression" then return ""
    let property ← read (·.childByField? "property") n
    if property.isNone then return ""
    let propertyKind ← read Node.kind property
    if propertyKind != "property_identifier" then return ""
    return textOf property

/-- `isEvalCall`, by reads that can fail. -/
def readEvalCall (n : Node) : Option Bool := readNameIn ["eval"] (callee? n)

/-- `isFunctionConstructor`, by reads that can fail. -/
def readFunctionConstructor (n : Node) : Option Bool :=
  if n.kind == "new_expression" then readNameIn ["Function"] (n.childByField? "constructor")
  else readNameIn ["Function"] (callee? n)

/-- `isExecCall`, by reads that can fail. -/
def readExecCall (n : Node) : Option Bool := do
  if ← readNameIn execNames (callee? n) then return true
  let property ← readMemberProperty (callee? n)
  return execNames.contains property

/-- `isInnerHtmlAssignment`, by reads that can fail. -/
def readInnerHtmlAssignment (n : Node) : Option Bool := do
  if n.kind != "assignment_expression" && n.kind != "augmented_assignment_expression" then
    return false
  let property ← readMemberProperty (n.childByField? "left")
  return property == "innerHTML"

/-- `isRawMarkupAttribute`, by reads that can fail. -/
def readRawMarkupAttribute (n : Node) : Option Bool := do
  if n.kind != "jsx_attribute" then return false
  if n.namedChildren.isEmpty then return false
  let text ← read Node.text n.namedChildren.head?
  return text == "dangerouslySetInnerHTML"

/-- `isDocumentWrite`, by reads that can fail. The object is read of what is called without a look
whether anything is. -/
def readDocumentWrite (n : Node) : Option Bool := do
  let property ← readMemberProperty (callee? n)
  if property != "write" then return false
  let object ← read (·.childByField? "object") (callee? n)
  readNameIn ["document"] object

/-- The shapes of the catalog, by reads that can fail. -/
def readings : List (Node → Option Bool) :=
  [readEvalCall, readFunctionConstructor, readExecCall, readInnerHtmlAssignment,
   readRawMarkupAttribute, readDocumentWrite]

theorem readNameIn_eq (names : List String) (n : Option Node) :
    readNameIn names n = some (isNameIn names n) := by
  cases n <;> rfl

theorem readMemberProperty_eq (n : Option Node) :
    readMemberProperty n = some (memberProperty n) := by
  cases n with
  | none => rfl
  | some n =>
    by_cases hkind : n.kind = "member_expression"
    · cases hproperty : n.childByField? "property" with
      | none => simp [readMemberProperty, memberProperty, read, hkind, hproperty]
      | some property =>
        by_cases hname : property.kind = "property_identifier" <;>
          simp [readMemberProperty, memberProperty, read, textOf, hkind, hproperty, hname]
    · simp [readMemberProperty, memberProperty, read, hkind]

theorem readExecCall_eq (n : Node) : readExecCall n = some (isExecCall n) := by
  unfold readExecCall isExecCall
  rw [readNameIn_eq, readMemberProperty_eq]
  cases isNameIn execNames (callee? n) <;> rfl

theorem readInnerHtmlAssignment_eq (n : Node) :
    readInnerHtmlAssignment n = some (isInnerHtmlAssignment n) := by
  unfold readInnerHtmlAssignment isInnerHtmlAssignment
  rw [readMemberProperty_eq]
  by_cases hkind : n.kind = "assignment_expression" ∨ n.kind = "augmented_assignment_expression"
  · rcases hkind with hkind | hkind <;> simp [hkind]
  · rw [not_or] at hkind
    simp [hkind]

theorem readRawMarkupAttribute_eq (n : Node) :
    readRawMarkupAttribute n = some (isRawMarkupAttribute n) := by
  unfold readRawMarkupAttribute isRawMarkupAttribute
  by_cases hkind : n.kind = "jsx_attribute"
  · cases n.namedChildren <;> simp [hkind, read]
  · simp [hkind]

/-- What is called has the property that is looked for, so it is there when its object is read. -/
theorem readDocumentWrite_eq (n : Node) : readDocumentWrite n = some (isDocumentWrite n) := by
  unfold readDocumentWrite isDocumentWrite
  rw [readMemberProperty_eq]
  cases callee? n with
  | none => rfl
  | some c =>
    by_cases hproperty : memberProperty (some c) = "write"
    · simp [hproperty, read, readNameIn_eq]
    · simp [hproperty]

/-- No read of a shape meets a missing node. -/
theorem readings_succeed :
    List.Forall₂ (fun shape reading => ∀ n, reading n = some (shape.check n)) catalog readings := by
  refine .cons (fun n => readNameIn_eq _ _) (.cons (fun n => ?_) (.cons readExecCall_eq
    (.cons readInnerHtmlAssignment_eq (.cons readRawMarkupAttribute_eq
      (.cons readDocumentWrite_eq .nil)))))
  by_cases hkind : n.kind = "new_expression" <;>
    simp [readFunctionConstructor, isFunctionConstructor, hkind, readNameIn_eq]

/-- **Scans of all trees.** Every tree, well formed or not, is scanned as if all shapes looked at all
of its nodes. A node gives one finding at most, so the shapes may be tried in any order, with or
without the filters. And no shape reads a missing callee, property or object. -/
theorem scanTree_needs_no_filter (root : Node) (path : String) :
    scanTree root path = scanAll catalog root path ∧
      (∀ n, (findingsAt path n).length ≤ 1) ∧
      (∀ shapes : List DangerousShape, shapes.Perm catalog →
        scanWith shapes root path = scanTree root path ∧
          scanAll shapes root path = scanTree root path) ∧
      List.Forall₂ (fun shape reading => ∀ n, reading n = some (shape.check n))
        catalog readings := by
  have hscan : scanTree root path = scanAll catalog root path := by
    rw [scanTree_eq_scanWith, scanWith_eq_scanAll fun _ hs => hs]
  refine ⟨hscan, fun n => ?_, fun shapes hshapes => ?_, readings_succeed⟩
  · rw [findingsAt, filter_kinds_check fun _ hs => hs, List.length_map]
    exact length_filter_check_le_one n
  · have hall : scanAll shapes root path = scanAll catalog root path := by
      unfold scanAll
      simp only [filter_check_perm hshapes]
    rw [scanWith_eq_scanAll hshapes.subset, hall, hscan]
    exact ⟨rfl, rfl⟩

/-- A call of a property, which is missing if no name is given. -/
def propertyCall (row : Nat) (object : String) (property : Option String) : Node :=
  .mk "call_expression" none row none true
    [.mk "member_expression" none row (some "function") true
      (.mk "identifier" (some object) row (some "object") true [] ::
        (property.map fun name =>
          .mk "property_identifier" (some name) row (some "property") true []).toList)]

/-- A call without anything that is called, one of a missing property, and two dangerous ones. -/
def brokenCalls : Node :=
  .mk "program" none 0 none true
    [.mk "call_expression" none 0 none true [], propertyCall 1 "document" none,
     propertyCall 2 "document" (some "write"), propertyCall 3 "child" (some "exec")]

/-- The shapes in reverse order find the same in a broken tree. -/
theorem scanTree_needs_no_filter_brokenCalls :
    catalog.reverse.Perm catalog ∧
      scanWith catalog.reverse brokenCalls "a.js" = scanTree brokenCalls "a.js" ∧
      (scanTree brokenCalls "a.js").map (·.name) =
        ["document.write()", "child_process exec()"] := by
  have hperm : catalog.reverse.Perm catalog := List.reverse_perm catalog
  refine ⟨hperm, ((scanTree_needs_no_filter brokenCalls "a.js").2.2.1 _ hperm).1, ?_⟩
  decide

end DangerousShape

end ScriptHealth
