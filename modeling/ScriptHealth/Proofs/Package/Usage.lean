import ScriptHealth.Package.Usage
import ScriptHealth.Proofs.Data.OrderedMap
import ScriptHealth.Proofs.Text.Segments
import Mathlib.Data.List.Perm.Subperm

/-!
# Which declared packages are used

A declared package is used exactly if some specifier is its name or leads below it. The package of a
specifier is read off its first segments, one of them or two, and for well-formed names the two
descriptions agree.

The search for used names ends as soon as it has found as many names as are declared. That is no
loss, because at every step the names found so far are declared names without repetition: once
there are as many of them as declared ones, they are all of them.

## Main definitions

* `Package.IsName` — well-formed names, plain or scoped
* `Package.Names` — a specifier is a name or leads below it
* `Manifest.WellFormed`, `Manifest.declared`, `Manifest.range?` — what a manifest declares
* `PackageUsage.Describes` — what the use of packages has to say about a project
* `Manifest.Reordered` — manifests with the same declarations in another order

## Main results

* `Package.bareName_eq_iff` — a specifier belongs to the package that it names
* `PackageUsage.mem_search` — the search finds every name, though it may end early
* `classify_describes` — the packages of a project by use
-/

namespace ScriptHealth

namespace Package

/-! ### Names and specifiers -/

/-- A well-formed name: one segment that does not start with an at sign, or a scope and a name. -/
def IsName (n : String) : Prop :=
  (n ≠ "" ∧ '/' ∉ n.toList ∧ n.toList.head? ≠ some '@') ∨
    ∃ scope name : String, n = "@" ++ scope ++ "/" ++ name ∧ scope ≠ "" ∧ '/' ∉ scope.toList ∧
      name ≠ "" ∧ '/' ∉ name.toList

/-- The specifier is the name of a package or leads below it. -/
def Names (specifier name : String) : Prop :=
  specifier = name ∨ (name ++ "/").toList <+: specifier.toList

instance (specifier name : String) : Decidable (Names specifier name) :=
  inferInstanceAs (Decidable (_ ∨ _))

/-- The number of segments in the name of the package that a specifier belongs to. -/
def segmentCount (specifier : List Char) : Nat := if specifier.head? = some '@' then 2 else 1

theorem toList_bareName (specifier : String) :
    (bareName specifier).toList = Text.joinWith ['/']
      ((Text.splitAt '/' specifier.toList).take (segmentCount specifier.toList)) := by
  rw [bareName, String.toList_ofList, segmentCount]

/-- A specifier is the name of its package or leads below it. -/
theorem names_bareName (specifier : String) : Names specifier (bareName specifier) := by
  have hcount : segmentCount specifier.toList ≠ 0 := by
    unfold segmentCount
    split <;> decide
  rcases Text.eq_or_prefix_joinWith_take '/' specifier.toList hcount with heq | hprefix
  · exact Or.inl (String.toList_injective (heq.trans (toList_bareName specifier).symm))
  · refine Or.inr ?_
    rw [String.toList_append, toList_bareName]
    exact hprefix

/-- A well-formed name has as many segments as its first character announces. -/
theorem IsName.length_splitAt {n : String} (h : IsName n) :
    (Text.splitAt '/' n.toList).length = segmentCount n.toList := by
  rcases h with ⟨-, hslash, hat⟩ | ⟨scope, name, rfl, -, hscope, -, hname⟩
  · rw [Text.splitAt_of_notMem hslash, segmentCount, if_neg hat]
    rfl
  · have htoList : ("@" ++ scope ++ "/" ++ name).toList =
        ('@' :: scope.toList) ++ '/' :: name.toList := by
      simp
    have hfirst : '/' ∉ '@' :: scope.toList := by simp [hscope]
    rw [htoList, Text.splitAt_append_cons, Text.splitAt_of_notMem hfirst,
      Text.splitAt_of_notMem hname]
    rfl

theorem IsName.toList_ne_nil {n : String} (h : IsName n) : n.toList ≠ [] := by
  rcases h with ⟨hne, -⟩ | ⟨scope, name, rfl, -⟩
  · exact fun hnil => hne (String.toList_eq_nil_iff.mp hnil)
  · simp

/-- For a well-formed name, a specifier belongs to the package exactly if it names it. -/
theorem bareName_eq_iff {n : String} (h : IsName n) (specifier : String) :
    bareName specifier = n ↔ Names specifier n := by
  constructor
  · rintro rfl
    exact names_bareName specifier
  · rintro (rfl | ⟨rest, hrest⟩)
    · -- all segments of the name are kept
      apply String.toList_injective
      rw [toList_bareName, ← h.length_splitAt, List.take_length, Text.joinWith_splitAt]
    · apply String.toList_injective
      rw [String.toList_append, List.append_assoc] at hrest
      -- the name decides the first character, and so how many segments are kept
      have hcount : segmentCount specifier.toList = segmentCount n.toList := by
        rw [← hrest, segmentCount, segmentCount, List.head?_append_of_ne_nil _ h.toList_ne_nil]
      have hsplit : Text.splitAt '/' specifier.toList =
          Text.splitAt '/' n.toList ++ Text.splitAt '/' rest := by
        rw [← hrest]
        exact Text.splitAt_append_cons '/' n.toList rest
      rw [toList_bareName, hcount, ← h.length_splitAt, hsplit, List.take_left,
        Text.joinWith_splitAt]

/-- What is expected at build time: the fixed list and the scope of type declarations. -/
theorem isBuildTime_iff (n : String) :
    isBuildTime n = true ↔ n ∈ buildTime ∨ typesScope.toList <+: n.toList := by
  simp [isBuildTime]

end Package

namespace PackageUsage

open Package

/-! ### The search -/

/-- The names found so far are declared names, each of them once. -/
structure Found (declared found : List String) : Prop where
  nodup : found.Nodup
  subset : found ⊆ declared

theorem found_nil (declared : List String) : Found declared [] :=
  ⟨List.nodup_nil, List.nil_subset declared⟩

/-- Looking at a name adds it if it is declared. -/
theorem mem_note {declared found : List String} {name n : String} :
    n ∈ note declared found name ↔ n ∈ found ∨ (n ∈ declared ∧ name = n) := by
  unfold note
  split
  · rename_i h
    simp only [Bool.and_eq_true, List.contains_iff_mem] at h
    rw [List.mem_cons]
    constructor
    · rintro (rfl | hn)
      · exact Or.inr ⟨h.1, rfl⟩
      · exact Or.inl hn
    · rintro (hn | ⟨-, rfl⟩)
      · exact Or.inr hn
      · exact Or.inl rfl
  · -- a name that is not added is not declared or was found before
    rename_i h
    simp only [Bool.and_eq_true, List.contains_iff_mem, Bool.not_eq_true', not_and,
      Bool.not_eq_false] at h
    refine ⟨Or.inl, ?_⟩
    rintro (hn | ⟨hn, rfl⟩)
    · exact hn
    · exact by simpa using h hn

/-- One step of the search keeps the names found declared and without repetition. -/
theorem Found.note {declared found : List String} (h : Found declared found) (name : String) :
    Found declared (note declared found name) where
  nodup := by
    unfold PackageUsage.note
    split
    · rename_i hname
      simp only [Bool.and_eq_true, Bool.not_eq_true', List.contains_eq_mem,
        decide_eq_false_iff_not] at hname
      exact List.nodup_cons.mpr ⟨hname.2, h.nodup⟩
    · exact h.nodup
  subset := by
    intro n hn
    rcases mem_note.mp hn with hfound | ⟨hdeclared, -⟩
    · exact h.subset hfound
    · exact hdeclared

/-- Once as many names are found as are declared, all of them are found. -/
theorem Found.mem_of_length_eq {declared found : List String} (h : Found declared found)
    (hlength : found.length = declared.length) {n : String} (hn : n ∈ declared) : n ∈ found := by
  have hperm : found.Perm declared :=
    (List.subperm_of_subset h.nodup h.subset).perm_of_length_le (Nat.le_of_eq hlength.symm)
  exact hperm.mem_iff.mpr hn

/-- The search finds the declared names that some specifier belongs to, though it may end before
the last specifier. -/
theorem mem_search {declared found : List String} (h : Found declared found)
    (specifiers : List String) {n : String} :
    n ∈ search declared found specifiers ↔
      n ∈ found ∨ (n ∈ declared ∧ ∃ s ∈ specifiers, bareName s = n) := by
  induction specifiers generalizing found with
  | nil => simp [search]
  | cons s rest ih =>
    have hstep := h.note (bareName s)
    -- what the step finds and what the rest would find make up the claim
    have hsplit : (n ∈ note declared found (bareName s) ∨
        (n ∈ declared ∧ ∃ t ∈ rest, bareName t = n)) ↔
        n ∈ found ∨ (n ∈ declared ∧ ∃ t ∈ s :: rest, bareName t = n) := by
      rw [mem_note, or_assoc, ← and_or_left, List.exists_mem_cons_iff]
    rw [← hsplit, search]
    split
    · -- the early end: the rest has nothing to add
      rename_i hfull
      simp only [Bool.and_eq_true, bne_iff_ne, ne_eq, beq_iff_eq] at hfull
      refine ⟨Or.inl, ?_⟩
      rintro (hn | ⟨hn, -⟩)
      · exact hn
      · exact hstep.mem_of_length_eq hfull.2 hn
    · exact ih hstep

end PackageUsage

/-! ### Manifests -/

namespace Manifest

/-- Both maps of the manifest declare each package once, under a well-formed name. -/
structure WellFormed (m : Manifest) : Prop where
  dependencies : m.dependencies.keys.Nodup
  devDependencies : m.devDependencies.keys.Nodup
  names : ∀ n, n ∈ m.dependencies.keys ∨ n ∈ m.devDependencies.keys → Package.IsName n

/-- The declared names: those of run time first, then those for development only. -/
def declared (m : Manifest) : List String :=
  m.dependencies.keys ++ m.devDependencies.keys.filter (· ∉ m.dependencies.keys)

/-- The range of a declared package; a range for development wins. -/
def range? (m : Manifest) (n : String) : Option String :=
  (m.devDependencies.get? n).or (m.dependencies.get? n)

/-- The same packages are declared with the same ranges, in whatever order. -/
structure Reordered (m m' : Manifest) : Prop where
  dependencies : m.dependencies.Perm m'.dependencies
  devDependencies : m.devDependencies.Perm m'.devDependencies

theorem Reordered.keys_all {m m' : Manifest} (h : m.Reordered m') :
    m.all.keys.Perm m'.all.keys :=
  OrderedMap.keys_union_perm (h.dependencies.map Prod.fst) h.devDependencies

variable {m : Manifest}

theorem WellFormed.keys_all (h : m.WellFormed) : m.all.keys = m.declared :=
  OrderedMap.keys_union h.devDependencies m.dependencies

theorem WellFormed.nodup_keys_all (h : m.WellFormed) : m.all.keys.Nodup :=
  OrderedMap.nodup_keys_union h.dependencies h.devDependencies

theorem WellFormed.nodup_declared (h : m.WellFormed) : m.declared.Nodup :=
  h.keys_all ▸ h.nodup_keys_all

theorem WellFormed.isName (h : m.WellFormed) {n : String} (hn : n ∈ m.declared) :
    Package.IsName n := by
  rcases List.mem_append.mp hn with hrun | hdev
  · exact h.names n (Or.inl hrun)
  · exact h.names n (Or.inr (List.mem_filter.mp hdev).1)

/-- The merged map pairs each declared package with its range. -/
theorem WellFormed.mem_all_iff (h : m.WellFormed) {n range : String} :
    (n, range) ∈ m.all ↔ m.range? n = some range := by
  rw [← OrderedMap.get?_eq_some_iff h.nodup_keys_all, all,
    OrderedMap.get?_union h.devDependencies, range?]

end Manifest

/-! ### Packages by use -/

namespace PackageUsage

open Package

/-- What the use of packages has to say about a manifest and the specifiers of a project. -/
structure Describes (m : Manifest) (specifiers : List String) (usage : PackageUsage) : Prop where
  mem_used : ∀ n, n ∈ usage.used ↔ n ∈ m.declared ∧ ∃ s ∈ specifiers, Names s n
  mem_unused : ∀ n, n ∈ usage.unused ↔
    n ∈ m.declared ∧ n ∉ usage.used ∧ n ∉ buildTime ∧ ¬ typesScope.toList <+: n.toList
  disjoint : usage.used.Disjoint usage.unused
  nodup_used : usage.used.Nodup
  nodup_unused : usage.unused.Nodup
  /-- Both lists are in the order of the declarations. -/
  used_sublist : usage.used.Sublist m.declared
  unused_sublist : usage.unused.Sublist m.declared
  /-- The pinned packages are in that order too, each once and with the range that wins. -/
  nodup_outdated : (usage.outdated.map (·.name)).Nodup
  outdated_sublist : (usage.outdated.map (·.name)).Sublist m.declared
  mem_outdated : ∀ o, o ∈ usage.outdated ↔
    m.range? o.name = some o.current ∧ isPinned o.current = true ∧ o.latest = "check npm registry"

/-- The search over the names of a well-formed manifest finds the used ones. -/
theorem mem_search_declared {m : Manifest} (h : m.WellFormed) (specifiers : List String)
    {n : String} :
    n ∈ search m.declared [] specifiers ↔ n ∈ m.declared ∧ ∃ s ∈ specifiers, Names s n := by
  rw [mem_search (found_nil m.declared)]
  simp only [List.not_mem_nil, false_or]
  refine and_congr_right fun hn => ?_
  simp only [bareName_eq_iff (h.isName hn)]

/-- The result depends on the set of specifiers only. -/
theorem classify_congr (m : Manifest) {specifiers specifiers' : List String}
    (same : ∀ s, s ∈ specifiers ↔ s ∈ specifiers') :
    classify (some m) specifiers = classify (some m) specifiers' := by
  have hfound (n : String) : (search m.all.keys [] specifiers).contains n =
      (search m.all.keys [] specifiers').contains n := by
    rw [Bool.eq_iff_iff, List.contains_iff_mem, List.contains_iff_mem, mem_search (found_nil _),
      mem_search (found_nil _)]
    simp only [same]
  simp only [classify, funext hfound, hfound]

/-- As many packages are unused when the declarations and the specifiers are reordered. -/
theorem length_unused_reordered {m m' : Manifest} (h : m.Reordered m')
    {specifiers specifiers' : List String} (same : ∀ s, s ∈ specifiers ↔ s ∈ specifiers') :
    (classify (some m) specifiers).unused.length =
      (classify (some m') specifiers').unused.length := by
  have hkeys := h.keys_all
  have hfound (n : String) : (search m.all.keys [] specifiers).contains n =
      (search m'.all.keys [] specifiers').contains n := by
    rw [Bool.eq_iff_iff, List.contains_iff_mem, List.contains_iff_mem, mem_search (found_nil _),
      mem_search (found_nil _)]
    simp only [same, hkeys.mem_iff]
  simp only [classify, hfound]
  exact (hkeys.filter _).length_eq

end PackageUsage

open PackageUsage in
/-- **Packages by use.** For every manifest with well-formed names and all specifiers, a declared
name is used if a specifier is that name or leads below it, and unused if it is not used and not
expected at build time; both lists, and that of the pinned packages, keep the order of the
declarations without repetition. Neither the order of the specifiers nor their repetition shows. -/
theorem classify_describes (m : Manifest) (h : m.WellFormed) (specifiers : List String) :
    Describes m specifiers (classify (some m) specifiers) ∧
      ∀ specifiers', (∀ s, s ∈ specifiers ↔ s ∈ specifiers') →
        classify (some m) specifiers = classify (some m) specifiers' := by
  refine ⟨?_, fun _ => classify_congr m⟩
  have hsearch (n : String) := mem_search_declared h specifiers (n := n)
  have hused (n : String) : n ∈ (classify (some m) specifiers).used ↔
      n ∈ m.declared ∧ ∃ s ∈ specifiers, Package.Names s n := by
    simp only [classify, List.mem_filter, List.contains_iff_mem, hsearch, h.keys_all,
      and_self_left]
  have hunused (n : String) : n ∈ (classify (some m) specifiers).unused ↔
      n ∈ m.declared ∧ n ∉ (classify (some m) specifiers).used ∧ n ∉ Package.buildTime ∧
        ¬ Package.typesScope.toList <+: n.toList := by
    rw [hused, ← hsearch]
    have hbuild := Package.isBuildTime_iff n
    simp only [classify, List.mem_filter, h.keys_all, Bool.and_eq_true, Bool.not_eq_true',
      ← Bool.not_eq_true, List.contains_iff_mem, hbuild, not_or]
  have hnames : ((classify (some m) specifiers).outdated.map (·.name)).Sublist m.declared := by
    rw [← h.keys_all]
    simp only [classify, List.map_map]
    exact List.filter_sublist.map _
  have hsubUsed : (classify (some m) specifiers).used.Sublist m.declared := by
    rw [← h.keys_all]
    exact List.filter_sublist
  have hsubUnused : (classify (some m) specifiers).unused.Sublist m.declared := by
    rw [← h.keys_all]
    exact List.filter_sublist
  exact {
    mem_used := hused
    mem_unused := hunused
    disjoint := fun n hn hn' => ((hunused n).mp hn').2.1 hn
    nodup_used := h.nodup_declared.sublist hsubUsed
    nodup_unused := h.nodup_declared.sublist hsubUnused
    used_sublist := hsubUsed
    unused_sublist := hsubUnused
    nodup_outdated := h.nodup_declared.sublist hnames
    outdated_sublist := hnames
    mem_outdated := by
      rintro ⟨n, range, latest⟩
      rw [← h.mem_all_iff]
      simp only [classify, List.mem_map, List.mem_filter]
      constructor
      · rintro ⟨d, ⟨hd, hpinned⟩, heq⟩
        cases heq
        exact ⟨hd, hpinned, rfl⟩
      · rintro ⟨hd, hpinned, rfl⟩
        exact ⟨(n, range), ⟨hd, hpinned⟩, rfl⟩
  }

/-- A manifest that declares a package twice, a scoped one, and two that are only needed to check
types. -/
def sampleManifest : Manifest :=
  { dependencies := [("@scope/pkg", "^1.0.0"), ("lodash", "^4.0.0"), ("left-pad", "*")]
    devDependencies := [("lodash", "4.17.21"), ("typescript", "~5.4"), ("@types/node", "20.1.0")] }

/-- Parts of two packages are imported, one of them twice, and a package with a longer name. -/
theorem classify_describes_sampleManifest :
    sampleManifest.WellFormed ∧
      PackageUsage.Describes sampleManifest
        ["lodash/merge", "@scope/pkg/sub", "left-padding", "lodash/merge"]
        { dependencies := sampleManifest.dependencies
          devDependencies := sampleManifest.devDependencies
          used := ["@scope/pkg", "lodash"]
          unused := ["left-pad"]
          outdated := [{ name := "lodash", current := "4.17.21" },
            { name := "@types/node", current := "20.1.0" }]
          suggestions := ["eslint - Add code quality linting",
            "prettier - Add consistent code formatting"] } := by
  have hplain (n : String) (h : n ≠ "" ∧ '/' ∉ n.toList ∧ n.toList.head? ≠ some '@') :
      Package.IsName n := Or.inl h
  have hscoped (scope name : String) (h : scope ≠ "" ∧ '/' ∉ scope.toList ∧ name ≠ "" ∧
      '/' ∉ name.toList) : Package.IsName ("@" ++ scope ++ "/" ++ name) :=
    Or.inr ⟨scope, name, rfl, h⟩
  have h : sampleManifest.WellFormed := {
    dependencies := by decide
    devDependencies := by decide
    names := by
      simp only [sampleManifest, OrderedMap.keys_cons, OrderedMap.keys_nil, List.mem_cons,
        List.not_mem_nil, or_false]
      rintro n ((rfl | rfl | rfl) | rfl | rfl | rfl)
      · exact hscoped "scope" "pkg" (by decide)
      · exact hplain _ (by decide)
      · exact hplain _ (by decide)
      · exact hplain _ (by decide)
      · exact hplain _ (by decide)
      · exact hscoped "types" "node" (by decide)
  }
  exact ⟨h, (classify_describes sampleManifest h _).1⟩

end ScriptHealth
