import ScriptHealth.Proofs.Script.Walk
import ScriptHealth.Script.Parser

/-!
# Comments in a tree

A comment may stand between any two children of a node. Checks that reach a child by its field pass
over comments, and so nothing changes for them when comments are put into a tree. Two checks take
the first named child instead: the one that looks for the first argument of a call, and the one that
looks for the name of a markup attribute. A comment is a named node, so in front of that child it
takes its place.

Hence a comment never adds an import, it hides one only at the start of an argument list, and it
touches no finding but that of an attribute which starts with a comment.

## Main definitions

* `Node.IsComment` — a named leaf that fills no field
* `Node.Commented` — a tree and the same tree with comments put in, at any places and any depth
* `Node.StartsWithComment` — a node whose first named child is a comment

## Main results

* `Node.Commented.childByField?` — fields do not see comments
* `CommentedAll.flatMap_preorder` — what is collected over a tree compares node by node
* `comments_hide_first_children_only` — what comments can change, and what they cannot
* `comment_hides_import` — a comment in front of the specifier hides the import
-/

namespace ScriptHealth

namespace Script

namespace Node

/-- A comment: a named leaf of its kind that fills no field. -/
structure IsComment (n : Node) : Prop where
  kind : n.kind = "comment"
  isNamed : n.isNamed = true
  field? : n.field? = none
  children : n.children = []

instance (n : Node) : Decidable n.IsComment :=
  decidable_of_iff (n.kind = "comment" ∧ n.isNamed = true ∧ n.field? = none ∧
      n.children.isEmpty = true)
    ⟨fun ⟨hk, hn, hf, hc⟩ => ⟨hk, hn, hf, List.isEmpty_iff.mp hc⟩,
      fun ⟨hk, hn, hf, hc⟩ => ⟨hk, hn, hf, List.isEmpty_iff.mpr hc⟩⟩

end Node

/-- The second list of trees is the first with comments put in: among the trees, and at any depth
among the children of their nodes. -/
inductive CommentedAll : List Node → List Node → Prop
  | nil : CommentedAll [] []
  | node {kind : String} {text? : Option String} {row : Nat} {field? : Option String}
      {named : Bool} {cs ds ns ms : List Node} (inner : CommentedAll cs ds)
      (rest : CommentedAll ns ms) :
      CommentedAll (.mk kind text? row field? named cs :: ns)
        (.mk kind text? row field? named ds :: ms)
  | comment {d : Node} {ns ms : List Node} (isComment : d.IsComment) (rest : CommentedAll ns ms) :
      CommentedAll ns (d :: ms)

namespace Node

/-- The second tree is the first with comments put in among the children of its nodes. -/
inductive Commented : Node → Node → Prop
  | mk {kind : String} {text? : Option String} {row : Nat} {field? : Option String} {named : Bool}
      {cs ds : List Node} (inner : CommentedAll cs ds) :
      Commented (.mk kind text? row field? named cs) (.mk kind text? row field? named ds)

namespace Commented

variable {n m : Node}

theorem kind (h : n.Commented m) : m.kind = n.kind := by
  cases h
  rfl

theorem text (h : n.Commented m) : m.text = n.text := by
  cases h
  rfl

theorem row (h : n.Commented m) : m.row = n.row := by
  cases h
  rfl

theorem children (h : n.Commented m) : CommentedAll n.children m.children := by
  cases h with
  | mk inner => exact inner

theorem commentedAll (h : n.Commented m) : CommentedAll [n] [m] := by
  cases h with
  | mk inner => exact .node inner .nil

end Commented

/-- The first named child of the node is a comment. -/
def StartsWithComment (n : Node) : Prop := ∃ c ∈ n.namedChildren.head?, c.IsComment

instance (n : Node) : Decidable n.StartsWithComment :=
  inferInstanceAs (Decidable (∃ c ∈ n.namedChildren.head?, c.IsComment))

end Node

namespace CommentedAll

variable {ns ms : List Node}

/-- Fields do not see comments: the children that fill a field are the same but for comments
inside them. -/
theorem find?_field (h : CommentedAll ns ms) (field : String) :
    Option.Rel Node.Commented (ns.find? fun c => c.field? == some field)
      (ms.find? fun c => c.field? == some field) := by
  induction h with
  | nil => exact .none
  | @node kind text? row field? named cs ds ns ms inner rest _ ih =>
    by_cases hfield : field? = some field
    · simpa [Node.field?, hfield] using Option.Rel.some (Node.Commented.mk inner)
    · simpa [Node.field?, hfield] using ih
  | comment hd rest ih => simpa [hd.field?] using ih

/-- If no comment is the first named child, the first named child is the same but for comments
inside it. -/
theorem head?_named (h : CommentedAll ns ms)
    (hfirst : ∀ c ∈ (ms.filter Node.isNamed).head?, ¬ c.IsComment) :
    Option.Rel Node.Commented (ns.filter Node.isNamed).head? (ms.filter Node.isNamed).head? := by
  induction h with
  | nil => exact .none
  | @node kind text? row field? named cs ds ns ms inner rest _ ih =>
    cases named with
    | true =>
      rw [List.filter_cons_of_pos rfl, List.filter_cons_of_pos rfl]
      exact .some (.mk inner)
    | false =>
      have hunnamed : (Node.mk kind text? row field? false ds).isNamed = false := rfl
      rw [List.filter_cons_of_neg (by simp [hunnamed])] at hfirst
      simpa [Node.isNamed] using ih hfirst
  | @comment d ns ms hd rest _ =>
    -- the comment itself would be the first named child
    rw [List.filter_cons_of_pos hd.isNamed] at hfirst
    exact absurd hd (hfirst d rfl)

/-- What is collected over the nodes of a tree compares as a whole if it compares node by node and
comments give nothing. The comparison may be any that concatenation respects. -/
theorem flatMap_preorder {β : Type} {R : List β → List β → Prop} (hnil : R [] [])
    (happend : ∀ {a b c d}, R a b → R c d → R (a ++ c) (b ++ d)) (f : Node → List β)
    (hcomment : ∀ d : Node, d.IsComment → f d = []) (h : CommentedAll ns ms)
    (hnode : ∀ n m : Node, n.Commented m → m ∈ Node.preorderAll ms → R (f n) (f m)) :
    R ((Node.preorderAll ns).flatMap f) ((Node.preorderAll ms).flatMap f) := by
  induction h with
  | nil => exact hnil
  | @node kind text? row field? named cs ds ns ms inner rest ihInner ihRest =>
    simp only [Node.preorderAll, Node.preorder, List.mem_append, List.mem_cons] at hnode
    simp only [Node.preorderAll, Node.preorder, List.flatMap_append, List.flatMap_cons]
    have hhere := hnode _ _ (.mk inner) (Or.inl (Or.inl rfl))
    have hinner := ihInner fun n m hnm hm => hnode n m hnm (Or.inl (Or.inr hm))
    have hrest := ihRest fun n m hnm hm => hnode n m hnm (Or.inr hm)
    exact happend (happend hhere hinner) hrest
  | @comment d ns ms hd rest ih =>
    -- a comment has no children, so its tree gives nothing
    have hleaf : d.preorder.flatMap f = [] := by
      obtain ⟨kind, text?, row, field?, named, children⟩ := d
      obtain rfl : children = [] := hd.children
      simpa [Node.preorder, Node.preorderAll] using hcomment _ hd
    rw [Node.preorderAll, List.flatMap_append, hleaf, List.nil_append]
    apply ih
    intro n m hnm hm
    exact hnode n m hnm (List.mem_append_right _ hm)

end CommentedAll

/-! ### What a node is seen as -/

namespace Node.Commented

variable {n m : Node}

/-- Fields do not see comments. -/
theorem childByField? (h : n.Commented m) (field : String) :
    Option.Rel Commented (n.childByField? field) (m.childByField? field) :=
  h.children.find?_field field

/-- What is collected over the nodes of a tree, with and without the comments. -/
theorem flatMap_preorder {β : Type} {R : List β → List β → Prop} (hnil : R [] [])
    (happend : ∀ {a b c d}, R a b → R c d → R (a ++ c) (b ++ d)) (f : Node → List β)
    (hcomment : ∀ d : Node, d.IsComment → f d = []) (h : n.Commented m)
    (hnode : ∀ x y : Node, x.Commented y → y ∈ m.preorder → R (f x) (f y)) :
    R (n.preorder.flatMap f) (m.preorder.flatMap f) := by
  have hlist := h.commentedAll.flatMap_preorder hnil happend f hcomment
  simp only [preorderAll, List.append_nil] at hlist
  exact hlist hnode

theorem flatMap_preorder_eq {β : Type} (h : n.Commented m) {f : Node → List β}
    (hcomment : ∀ d : Node, d.IsComment → f d = [])
    (hnode : ∀ x y : Node, x.Commented y → y ∈ m.preorder → f y = f x) :
    m.preorder.flatMap f = n.preorder.flatMap f :=
  flatMap_preorder (R := fun before after => after = before) rfl
    (fun hab hcd => by rw [hab, hcd]) f hcomment h hnode

/-- The first named child, unless a comment took its place. -/
theorem head?_namedChildren (h : n.Commented m) (hfirst : ¬ m.StartsWithComment) :
    Option.Rel Commented n.namedChildren.head? m.namedChildren.head? := by
  apply h.children.head?_named
  intro c hc hcomment
  exact hfirst ⟨c, hc, hcomment⟩

/-- The value of a string literal. -/
theorem stringValue? (h : n.Commented m) : Script.stringValue? m = Script.stringValue? n := by
  simp only [Script.stringValue?, h.kind, h.text]

theorem isImporter (h : n.Commented m) : Script.isImporter m = Script.isImporter n := by
  simp only [Script.isImporter, h.kind, h.text]

end Node.Commented

/-! ### Imports -/

/-- The first argument, unless a comment took its place. -/
theorem firstArgument?_commented {n m : Node} (h : n.Commented m)
    (hfirst : ∀ args ∈ m.childByField? "arguments", ¬ args.StartsWithComment) :
    Option.Rel Node.Commented (firstArgument? n) (firstArgument? m) := by
  have hargs := h.childByField? "arguments"
  unfold firstArgument?
  generalize n.childByField? "arguments" = before at hargs ⊢
  generalize m.childByField? "arguments" = after at hargs hfirst ⊢
  cases hargs with
  | none => exact .none
  | @some args args' hab =>
    dsimp only
    rw [hab.kind]
    split
    · exact hab.head?_namedChildren (hfirst args' rfl)
    · exact .none

/-- A comment in the place of the first argument is no string literal. -/
theorem bind_stringValue?_firstArgument?_eq_none {m args : Node}
    (hargs : args ∈ m.childByField? "arguments") (hfirst : args.StartsWithComment) :
    (firstArgument? m).bind stringValue? = none := by
  obtain ⟨c, hc, hcomment⟩ := hfirst
  rw [Option.mem_def] at hargs hc
  have hvalue : stringValue? c = none := by
    rw [stringValue?, hcomment.kind]
    exact if_neg (by decide)
  unfold firstArgument?
  rw [hargs]
  dsimp only
  split
  · rw [hc, Option.bind_some, hvalue]
  · rfl

/-- The value of a child that may have comments inside it. -/
theorem bind_stringValue?_commented {a b : Option Node} (h : Option.Rel Node.Commented a b) :
    b.bind stringValue? = a.bind stringValue? := by
  cases h with
  | none => rfl
  | some hab => exact hab.stringValue?

/-- A node imports what it did, unless a comment took the place of its first argument, and then it
imports nothing. -/
theorem specifierOf?_commented {n m : Node} (h : n.Commented m) :
    specifierOf? m = specifierOf? n ∨
      (m.kind = "call_expression" ∧ specifierOf? m = none ∧
        ∃ args ∈ m.childByField? "arguments", args.StartsWithComment) := by
  unfold specifierOf?
  rw [h.kind]
  split
  · exact Or.inl (bind_stringValue?_commented (h.childByField? "source"))
  · split
    · rename_i hcall
      -- what is called is reached by its field, so the two calls agree on it
      have hcallee := h.childByField? "function"
      generalize n.childByField? "function" = before at hcallee ⊢
      generalize m.childByField? "function" = after at hcallee ⊢
      cases hcallee with
      | none => exact Or.inl rfl
      | @some callee callee' hab =>
        dsimp only
        rw [hab.isImporter]
        split
        · by_cases hfirst : ∃ args ∈ m.childByField? "arguments", args.StartsWithComment
          · obtain ⟨args, hargs, hstarts⟩ := hfirst
            exact Or.inr ⟨hcall, bind_stringValue?_firstArgument?_eq_none hargs hstarts,
              args, hargs, hstarts⟩
          · refine Or.inl (bind_stringValue?_commented (firstArgument?_commented h ?_))
            intro args hargs hstarts
            exact hfirst ⟨args, hargs, hstarts⟩
        · exact Or.inl rfl
    · exact Or.inl rfl

/-- A comment imports nothing. -/
theorem Node.IsComment.specifierOf?_eq_none {n : Node} (h : n.IsComment) :
    specifierOf? n = none := by
  apply Script.specifierOf?_eq_none
  rw [h.kind]
  decide

end Script

open Script

/-! ### Dangerous shapes -/

namespace DangerousShape

variable {n m : Node}

/-- What is called is reached by its field. -/
theorem callee?_commented (h : n.Commented m) :
    Option.Rel Node.Commented (callee? n) (callee? m) := by
  unfold callee?
  rw [h.kind]
  split
  · exact h.childByField? "function"
  · exact .none

theorem isNameIn_commented {a b : Option Node} (h : Option.Rel Node.Commented a b)
    (names : List String) : isNameIn names b = isNameIn names a := by
  cases h with
  | none => rfl
  | some hab => simp only [isNameIn, hab.kind, hab.text]

theorem memberProperty_commented {a b : Option Node} (h : Option.Rel Node.Commented a b) :
    memberProperty b = memberProperty a := by
  cases h with
  | none => rfl
  | @some x y hab =>
    have hproperty := hab.childByField? "property"
    simp only [memberProperty, hab.kind]
    generalize x.childByField? "property" = before at hproperty ⊢
    generalize y.childByField? "property" = after at hproperty ⊢
    cases hproperty with
    | none => rfl
    | some hpq => simp only [hpq.kind, hpq.text]

theorem isEvalCall_commented (h : n.Commented m) : isEvalCall m = isEvalCall n :=
  isNameIn_commented (callee?_commented h) _

theorem isFunctionConstructor_commented (h : n.Commented m) :
    isFunctionConstructor m = isFunctionConstructor n := by
  simp only [isFunctionConstructor, h.kind,
    isNameIn_commented (h.childByField? "constructor"), isNameIn_commented (callee?_commented h)]

theorem isExecCall_commented (h : n.Commented m) : isExecCall m = isExecCall n := by
  simp only [isExecCall, isNameIn_commented (callee?_commented h),
    memberProperty_commented (callee?_commented h)]

theorem isInnerHtmlAssignment_commented (h : n.Commented m) :
    isInnerHtmlAssignment m = isInnerHtmlAssignment n := by
  simp only [isInnerHtmlAssignment, h.kind, memberProperty_commented (h.childByField? "left")]

theorem isDocumentWrite_commented (h : n.Commented m) :
    isDocumentWrite m = isDocumentWrite n := by
  have hcallee := callee?_commented h
  unfold isDocumentWrite
  generalize callee? n = before at hcallee ⊢
  generalize callee? m = after at hcallee ⊢
  cases hcallee with
  | none => rfl
  | some hab =>
    simp only [memberProperty_commented (.some hab),
      isNameIn_commented (hab.childByField? "object")]

/-- An attribute is known by its first named child. -/
theorem isRawMarkupAttribute_eq (n : Node) :
    isRawMarkupAttribute n = (n.kind == "jsx_attribute" &&
      n.namedChildren.head?.any (·.text == "dangerouslySetInnerHTML")) := by
  unfold isRawMarkupAttribute
  cases n.namedChildren with
  | nil => rfl
  | cons c cs => rfl

theorem isRawMarkupAttribute_commented (h : n.Commented m)
    (hfirst : m.kind = "jsx_attribute" → ¬ m.StartsWithComment) :
    isRawMarkupAttribute m = isRawMarkupAttribute n := by
  rw [isRawMarkupAttribute_eq, isRawMarkupAttribute_eq, h.kind]
  by_cases hkind : n.kind = "jsx_attribute"
  · have hhead := h.head?_namedChildren (hfirst (h.kind.trans hkind))
    generalize n.namedChildren.head? = before at hhead ⊢
    generalize m.namedChildren.head? = after at hhead ⊢
    cases hhead with
    | none => rfl
    | some hcd => simp only [Option.any_some, hcd.text]
  · rw [beq_false_of_ne hkind, Bool.false_and, Bool.false_and]

/-- The name of the one shape that looks at the first named child. -/
def rawMarkupName : String := "dangerouslySetInnerHTML"

/-- All other shapes are blind to comments. -/
theorem check_commented (h : n.Commented m) {s : DangerousShape} (hs : s ∈ catalog) :
    s.check m = s.check n ∨
      (s.name = rawMarkupName ∧ m.kind = "jsx_attribute" ∧ m.StartsWithComment) := by
  simp only [catalog, List.mem_cons, List.not_mem_nil, or_false] at hs
  rcases hs with rfl | rfl | rfl | rfl | rfl | rfl
  · exact Or.inl (isEvalCall_commented h)
  · exact Or.inl (isFunctionConstructor_commented h)
  · exact Or.inl (isExecCall_commented h)
  · exact Or.inl (isInnerHtmlAssignment_commented h)
  · by_cases hfirst : m.kind = "jsx_attribute" ∧ m.StartsWithComment
    · exact Or.inr ⟨rfl, hfirst⟩
    · exact Or.inl (isRawMarkupAttribute_commented h fun hkind hstarts => hfirst ⟨hkind, hstarts⟩)
  · exact Or.inl (isDocumentWrite_commented h)

/-- The findings at a node whose name passes a test do not change if no shape with such a name
does. -/
theorem filter_findingsAt_commented (h : n.Commented m) (path : String) (p : String → Bool)
    (hp : ∀ s ∈ catalog, p s.name = true → s.check m = s.check n) :
    (findingsAt path m).filter (fun f => p f.name) =
      (findingsAt path n).filter (fun f => p f.name) := by
  have hfinding : finding path m = finding path n := by
    funext s
    simp only [finding, Node.line, h.row]
  simp only [findingsAt, hfinding, h.kind, List.filter_map, List.filter_filter]
  congr 1
  apply List.filter_congr
  intro s hs
  by_cases hname : p s.name = true
  · simp [finding, hp s hs hname]
  · simp [finding, hname]

/-- There is nothing to find at a comment. -/
theorem findingsAt_comment (path : String) {d : Node} (h : d.IsComment) :
    findingsAt path d = [] := by
  apply findingsAt_eq_nil
  rw [h.kind]
  decide

end DangerousShape

/-- **What comments can change.** Put comments into a tree, at any places and any depth. No import
is added by that, and one is lost only if a comment becomes the first child of an argument list. All
findings stay but those of the attribute for raw markup, and these stay unless a comment becomes the
first child of an attribute. -/
theorem comments_hide_first_children_only {root root' : Node} (h : root.Commented root')
    (path : String) :
    (imports root').Sublist (imports root) ∧
      ((∀ call ∈ root'.preorder, call.kind = "call_expression" →
          ∀ args ∈ call.childByField? "arguments", ¬ args.StartsWithComment) →
        imports root' = imports root) ∧
      (scanTree root' path).filter (·.name != DangerousShape.rawMarkupName) =
        (scanTree root path).filter (·.name != DangerousShape.rawMarkupName) ∧
      ((∀ a ∈ root'.preorder, a.kind = "jsx_attribute" → ¬ a.StartsWithComment) →
        scanTree root' path = scanTree root path) := by
  have hspecifier (d : Node) (hd : d.IsComment) : (specifierOf? d).toList = [] := by
    rw [hd.specifierOf?_eq_none, Option.toList_none]
  simp only [imports_eq_filterMap, scanTree_eq_flatMap, List.filterMap_eq_flatMap_toList,
    List.filter_flatMap]
  refine ⟨?_, fun hcalls => ?_, ?_, fun hattributes => ?_⟩
  · refine Node.Commented.flatMap_preorder (R := fun before after => after.Sublist before)
      (.refl []) (fun hab hcd => hab.append hcd) _ hspecifier h fun n m hnm _ => ?_
    rcases specifierOf?_commented hnm with heq | ⟨-, hnone, -⟩
    · rw [heq]
    · rw [hnone]
      exact List.nil_sublist _
  · refine h.flatMap_preorder_eq hspecifier fun n m hnm hm => ?_
    rcases specifierOf?_commented hnm with heq | ⟨hcall, -, args, hargs, hstarts⟩
    · rw [heq]
    · exact absurd hstarts (hcalls m hm hcall args hargs)
  · refine h.flatMap_preorder_eq (fun d hd => ?_) fun n m hnm _ => ?_
    · rw [DangerousShape.findingsAt_comment path hd, List.filter_nil]
    · refine DangerousShape.filter_findingsAt_commented hnm path
        (fun name => name != DangerousShape.rawMarkupName) fun s hs hname => ?_
      rcases DangerousShape.check_commented hnm hs with heq | ⟨hraw, -⟩
      · exact heq
      · exact absurd hraw (bne_iff_ne.mp hname)
  · refine h.flatMap_preorder_eq (fun d => DangerousShape.findingsAt_comment path)
      fun n m hnm hm => ?_
    have hall := DangerousShape.filter_findingsAt_commented hnm path (fun _ => true)
      fun s hs _ => by
        rcases DangerousShape.check_commented hnm hs with heq | ⟨-, hkind, hstarts⟩
        · exact heq
        · exact absurd hstarts (hattributes m hm hkind)
    simpa using hall

/-- A call of `import` with the given arguments. -/
def dynamicImport (args : List Node) : Node :=
  .mk "call_expression" none 0 none true
    [.mk "import" (some "import") 0 (some "function") true [],
     .mk "arguments" none 0 (some "arguments") true args]

/-- A string literal as an argument. -/
def sampleSpecifier : Node := .mk "string" (some "'./x'") 0 none true []

/-- A comment as an argument. -/
def sampleComment : Node := .mk "comment" (some "/* lazy */") 0 none true []

/-- Behind the specifier a comment changes nothing. -/
theorem comments_hide_first_children_only_behind :
    (dynamicImport [sampleSpecifier]).Commented (dynamicImport [sampleSpecifier, sampleComment]) ∧
      imports (dynamicImport [sampleSpecifier, sampleComment]) = ["./x"] := by
  have hcomment : sampleComment.IsComment := by decide
  have h : (dynamicImport [sampleSpecifier]).Commented
      (dynamicImport [sampleSpecifier, sampleComment]) :=
    .mk (.node .nil (.node (.node .nil (.comment hcomment .nil)) .nil))
  refine ⟨h, ?_⟩
  rw [(comments_hide_first_children_only h "").2.1 (by decide)]
  decide

/-- In front of the specifier it hides the import, also in a tree that the parser makes. -/
theorem comment_hides_import :
    (dynamicImport [sampleSpecifier]).Commented (dynamicImport [sampleComment, sampleSpecifier]) ∧
      imports (dynamicImport [sampleSpecifier]) = ["./x"] ∧
      imports (dynamicImport [sampleComment, sampleSpecifier]) = [] ∧
      (parse .javascript "import('./x')").toOption.map imports = some ["./x"] ∧
      (parse .javascript "import(/* lazy */ './x')").toOption.map imports = some [] := by
  have hcomment : sampleComment.IsComment := by decide
  refine ⟨.mk (.node .nil (.node (.comment hcomment (.node .nil .nil)) .nil)), ?_, ?_, ?_, ?_⟩
  · decide
  · decide
  · decide +kernel
  · decide +kernel

end ScriptHealth
