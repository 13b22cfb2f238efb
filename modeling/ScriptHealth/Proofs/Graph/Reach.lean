import ScriptHealth.Proofs.Graph.Chain

/-!
# What relative specifiers reach

A specifier is read segment by segment from the directory of its importer, or from the root of the
project if it starts with a slash. Where this never leaves the root, every file of the project can
be reached from every other one, by going up to any directory that both are in and down again. Where
it leaves the root, even for a moment, no file is reached: the joined path starts with a step up
then, and so does every path that is looked up for it.

## Main definitions

* `Specifier.segmentsRead` — the segments that a specifier is read by
* `Specifier.relativeTo` — the specifier that goes up and down again
* `Specifier.LeavesRoot` — reading segments leads out of the root at some point
* `Specifier.IsNormalPath`, `Specifier.IsVisible` — paths of project files

## Main results

* `Specifier.base_eq_assemble` — the joined path is what the segments read lead to
* `Specifier.relativeTo_resolves` — relative specifiers between the files of a project
* `Specifier.head?_of_mem_probes` — what is looked up for a path outside of the root
* `Specifier.resolve?_eq_none_of_leavesRoot` — leaving the root
-/

namespace ScriptHealth.Specifier

open ScriptHealth.Path Text

/-! ### The joined path -/

variable {specifier dir p q b : List Char}

/-- The segments that a specifier is read by: those of the directory of the importer, unless there
is a slash in front, and then those of the specifier. Backslashes separate segments as slashes do,
here as in the directory of an importer. -/
def segmentsRead (specifier dir : List Char) : List (List Char) :=
  let s := slashes specifier
  if s.head? = some '/' then segments s else segments dir ++ segments s

/-- The empty path names as little as the path that stays. -/
theorem namedSegments_orHere (p : List Char) :
    namedSegments (if p = [] then here else p) = namedSegments p := by
  split
  · rename_i hp
    rw [hp]
    rfl
  · rfl

theorem head?_orHere : (if p = [] then here else p).head? = some '/' ↔ p.head? = some '/' := by
  split
  · rename_i hp
    simp [hp, here]
  · rfl

theorem backslash_notMem_orHere (hp : '\\' ∉ p) : '\\' ∉ if p = [] then here else p := by
  split
  · decide
  · exact hp

/-- A relative path without backslashes is brought into normal form by its named segments. -/
theorem normal_eq_assemble (hp : '\\' ∉ p) (hrelative : p.head? ≠ some '/') :
    normal p = assemble 0 (resolveSegments false (namedSegments p)) := by
  have hzero : leadingSlashes p = 0 := leadingSlashes_eq_zero_iff.mpr hrelative
  rw [normal, slashes_eq_self hp, normalize_eq_assemble, hzero]
  rfl

/-- The joined path is what the segments read lead to, as long as it does not start with a slash. -/
theorem base_eq_assemble (hdir : '\\' ∉ dir)
    (hrelative : (slashes specifier).head? = some '/' ∨ dir.head? ≠ some '/') :
    base specifier dir = assemble 0 (resolveSegments false (segmentsRead specifier dir)) := by
  have hback : '\\' ∉ slashes specifier := fun h => slashes_ne_backslash h rfl
  unfold base segmentsRead
  dsimp only
  split
  · -- from the root: the slashes in front are dropped
    have hinner : '\\' ∉ (slashes specifier).dropWhile (· == '/') := fun h =>
      hback ((List.dropWhile_sublist _).subset h)
    have hhead : ((slashes specifier).dropWhile (· == '/')).head? ≠ some '/' := by
      intro h
      have hnot := List.head?_dropWhile_not (· == '/') (slashes specifier)
      rw [h] at hnot
      simp at hnot
    rw [normal_eq_assemble (backslash_notMem_orHere hinner) (mt head?_orHere.mp hhead),
      namedSegments_orHere, namedSegments_dropWhile, namedSegments, resolveSegments_filter]
  · -- from the directory of the importer
    rename_i hslash
    have hjoin : '\\' ∉ join (if dir = [] then here else dir) (slashes specifier) := by
      intro h
      rcases mem_join h with h | h | h
      · exact backslash_notMem_orHere hdir h
      · exact hback h
      · cases h
    have hhead := hrelative.resolve_left hslash
    rw [normal_eq_assemble hjoin (mt (head?_join hslash).mp (mt head?_orHere.mp hhead)),
      namedSegments_join, if_neg hslash, namedSegments_orHere, namedSegments, namedSegments,
      ← List.filter_append, resolveSegments_filter]

/-! ### Up and down again -/

/-- A path of a project file in normal form: each segment names an entry, without backslashes. -/
def IsNormalPath (p : String) : Prop := ∀ s ∈ segments p.toList, NamesEntry s ∧ '\\' ∉ s

instance (p : String) : Decidable (IsNormalPath p) := List.decidableBAll _ _

/-- The segments that go up a number of directories; a path that goes up none stays where it is. -/
def stepsUp : Nat → List (List Char)
  | 0 => [here]
  | n + 1 => List.replicate (n + 1) up

/-- The specifier that goes up a number of directories and then down the given segments. -/
def relativeTo (ups : Nat) (below : List (List Char)) : String :=
  String.ofList (joinWith ['/'] (stepsUp ups ++ below))

theorem mem_stepsUp {n : Nat} {s : List Char} (h : s ∈ stepsUp n) : s = here ∨ s = up := by
  cases n with
  | zero => exact Or.inl (List.mem_singleton.mp h)
  | succ n => exact Or.inr (List.eq_of_mem_replicate h)

/-- What a specifier that goes up and down again names. -/
theorem namedSegments_stepsUp {below : List (List Char)} (hbelow : ∀ s ∈ below, IsNamed s)
    (n : Nat) : namedSegments (joinWith ['/'] (stepsUp n ++ below)) =
      List.replicate n up ++ below := by
  have hsegments : segments (joinWith ['/'] (stepsUp n ++ below)) = stepsUp n ++ below := by
    apply splitAt_joinWith
    · cases n <;> simp [stepsUp, List.replicate_succ]
    · intro s hs
      rcases List.mem_append.mp hs with hs | hs
      · rcases mem_stepsUp hs with rfl | rfl <;> decide
      · exact (hbelow s hs).2.2
  have hup : (stepsUp n).filter (fun s => s != [] && s != here) = List.replicate n up := by
    cases n with
    | zero => rfl
    | succ n =>
      rw [stepsUp, List.filter_eq_self]
      intro s hs
      rw [List.eq_of_mem_replicate hs]
      decide
  have hkept : below.filter (fun s => s != [] && s != here) = below := by
    rw [List.filter_eq_self]
    intro s hs
    simp [(hbelow s hs).1, (hbelow s hs).2.1]
  rw [namedSegments, hsegments, List.filter_append, hup, hkept]

/-- The specifier starts with a dot. -/
theorem head?_relativeTo (n : Nat) (below : List (List Char)) :
    (relativeTo n below).toList.head? = some '.' := by
  rw [relativeTo, String.toList_ofList]
  cases n with
  | zero => cases below <;> rfl
  | succ n => cases n <;> cases below <;> rfl

/-- Slashes between names bring no backslash with them. -/
theorem backslash_notMem_joinWith {names : List (List Char)} (hnames : ∀ s ∈ names, '\\' ∉ s) :
    '\\' ∉ joinWith ['/'] names := by
  intro h
  rcases mem_joinWith h with hsep | ⟨s, hs, hmem⟩
  · exact absurd (List.mem_singleton.mp hsep) (by decide)
  · exact hnames s hs hmem

theorem backslash_notMem_relativeTo {below : List (List Char)} (hbelow : ∀ s ∈ below, '\\' ∉ s)
    (n : Nat) : '\\' ∉ (relativeTo n below).toList := by
  rw [relativeTo, String.toList_ofList]
  apply backslash_notMem_joinWith
  intro s hs
  rcases List.mem_append.mp hs with hs | hs
  · rcases mem_stepsUp hs with rfl | rfl <;> decide
  · exact hbelow s hs

/-- From a directory below an ancestor, going up to the ancestor and down again leads to what is
below the ancestor. -/
theorem base_relativeTo {ancestor dirs below : List (List Char)}
    (hnames : ∀ s ∈ ancestor ++ dirs ++ below, (NamesEntry s ∧ '\\' ∉ s) ∧ '/' ∉ s)
    (hbelow : below ≠ []) :
    base (relativeTo dirs.length below).toList (joinWith ['/'] (ancestor ++ dirs)) =
      joinWith ['/'] (ancestor ++ below) := by
  have hentries {names : List (List Char)} (hsub : names ⊆ ancestor ++ dirs ++ below) :
      ∀ s ∈ names, NamesEntry s := fun s hs => (hnames s (hsub hs)).1.1
  have hnamed {names : List (List Char)} (hsub : names ⊆ ancestor ++ dirs ++ below) :
      ∀ s ∈ names, IsNamed s :=
    isNamed_of_namesEntry (hentries hsub) fun s hs => (hnames s (hsub hs)).2
  have hdir : '\\' ∉ joinWith ['/'] (ancestor ++ dirs) :=
    backslash_notMem_joinWith fun s hs => (hnames s (List.mem_append_left below hs)).1.2
  have hspecifier : slashes (relativeTo dirs.length below).toList =
      (relativeTo dirs.length below).toList :=
    slashes_eq_self (backslash_notMem_relativeTo
      (fun s hs => (hnames s (List.mem_append_right _ hs)).1.2) dirs.length)
  -- the names that are read: down to the importer, up to the ancestor, and down again
  have hread : (segmentsRead (relativeTo dirs.length below).toList
      (joinWith ['/'] (ancestor ++ dirs))).filter (fun s => s != [] && s != here) =
        ancestor ++ dirs ++ (List.replicate dirs.length up ++ below) := by
    rw [segmentsRead, hspecifier, head?_relativeTo, if_neg (by decide), List.filter_append,
      ← namedSegments, ← namedSegments, namedSegments_joinWith (hnamed (by simp)), relativeTo,
      String.toList_ofList, namedSegments_stepsUp (hnamed (by simp))]
  rw [base_eq_assemble hdir (Or.inr (head?_joinWith (hnamed (by simp)))), ← resolveSegments_filter,
    hread, resolveSegments_down_up (hentries (by simp)) (hentries (by simp)) (hentries (by simp)),
    joinWith_eq_assemble (by simp [hbelow]) (hnamed (by simp))]

/-- A path in normal form holds no backslash. -/
theorem IsNormalPath.backslash_notMem {p : String} (h : IsNormalPath p) : '\\' ∉ p.toList := by
  rw [← joinWith_splitAt '/' p.toList]
  exact backslash_notMem_joinWith fun s hs => (h s hs).2

/-- The directory of a file is made of all its segments but the last. -/
theorem importerDir_eq {importer : String} (himporter : IsNormalPath importer)
    {dirs : List (List Char)} {name : List Char}
    (hsegments : segments importer.toList = dirs ++ [name]) :
    (importerDir importer).toList = joinWith ['/'] dirs := by
  have hslash : ∀ s ∈ dirs ++ [name], '/' ∉ s := by
    rw [← hsegments]
    exact fun s hs => sep_notMem_of_mem_splitAt hs
  have hnamed : ∀ s ∈ dirs ++ [name], IsNamed s :=
    isNamed_of_namesEntry (fun s hs => (himporter s (hsegments ▸ hs)).1) hslash
  have hpath : importer.toList = joinWith ['/'] (dirs ++ [name]) := by
    rw [← hsegments]
    exact (joinWith_splitAt '/' importer.toList).symm
  rw [importerDir, String.toList_ofList, slashes_eq_self himporter.backslash_notMem, hpath,
    parent_joinWith (fun s hs => hnamed s (List.mem_append_left _ hs)) (hslash name (by simp))]

/-- **Relative specifiers.** Between two files of a project, the specifier that goes up to any
directory that both are in, and then down, is relative and stands for the file that it leads to,
whatever other files there are. -/
theorem relativeTo_resolves {isFile : String → Bool}
    (hpaths : ∀ p, isFile p = true → IsNormalPath p) {p q : String} (hp : isFile p = true)
    (hq : isFile q = true) {ancestor dirs below : List (List Char)} {name : List Char}
    (hpSegments : segments p.toList = ancestor ++ below) (hbelow : below ≠ [])
    (hqSegments : segments q.toList = ancestor ++ dirs ++ [name]) :
    isRelative (relativeTo dirs.length below) = true ∧
      resolve? (relativeTo dirs.length below) q isFile = some p := by
  have hnames : ∀ s ∈ ancestor ++ dirs ++ below, (NamesEntry s ∧ '\\' ∉ s) ∧ '/' ∉ s := by
    have hof {path : String} (hpath : isFile path = true) {s : List Char}
        (hs : s ∈ segments path.toList) : (NamesEntry s ∧ '\\' ∉ s) ∧ '/' ∉ s :=
      ⟨hpaths path hpath s hs, sep_notMem_of_mem_splitAt hs⟩
    intro s hs
    rcases List.mem_append.mp hs with hs | hs
    · exact hof hq (hqSegments ▸ List.mem_append_left _ hs)
    · exact hof hp (hpSegments ▸ List.mem_append_right _ hs)
  have hbase : base (relativeTo dirs.length below).toList (importerDir q).toList = p.toList := by
    rw [importerDir_eq (hpaths q hq) hqSegments, base_relativeTo hnames hbelow, ← hpSegments]
    exact joinWith_splitAt '/' p.toList
  constructor
  · obtain ⟨rest, hrest⟩ := List.head?_eq_some_iff.mp (head?_relativeTo dirs.length below)
    rw [isRelative, hrest]
    rfl
  · -- the joined path is the first one that is looked up
    rw [resolve?_eq_find?_lookups, lookups, hbase, chain, List.cons_append, List.map_cons,
      String.ofList_toList, List.find?_cons, hp]

/-- The files of a project, one of which is the name of another one with an ending. -/
def nestedFiles : List String :=
  ["main.ts", "src/ui/page.ts.ts", "src/ui/page.ts", "src/ui/parts/head.ts"]

theorem isNormalPath_nestedFiles {p : String} (h : nestedFiles.contains p = true) :
    IsNormalPath p := by
  have hall : ∀ p ∈ nestedFiles, IsNormalPath p := by decide
  exact hall p (List.contains_iff_mem.mp h)

/-- From a nested file all the way up to the root, and down into the directory that it came from. -/
theorem relativeTo_resolves_nestedFiles :
    relativeTo 3 ["src".toList, "ui".toList, "page.ts".toList] = "../../../src/ui/page.ts" ∧
      isRelative "../../../src/ui/page.ts" = true ∧
      resolve? "../../../src/ui/page.ts" "src/ui/parts/head.ts" nestedFiles.contains =
        some "src/ui/page.ts" := by
  have hspecifier : relativeTo 3 ["src".toList, "ui".toList, "page.ts".toList] =
      "../../../src/ui/page.ts" := by
    decide
  have htarget : segments "src/ui/page.ts".toList =
      [] ++ ["src".toList, "ui".toList, "page.ts".toList] := by
    decide
  have himporter : segments "src/ui/parts/head.ts".toList =
      [] ++ ["src".toList, "ui".toList, "parts".toList] ++ ["head.ts".toList] := by
    decide
  refine ⟨hspecifier, ?_⟩
  rw [← hspecifier]
  exact relativeTo_resolves (fun p => isNormalPath_nestedFiles) (by decide) (by decide) htarget
    (List.cons_ne_nil _ _) himporter

/-! ### Leaving the root -/

/-- Reading segments from the root leaves it: at some point more of them went up than named
something. -/
def LeavesRoot (segs : List (List Char)) : Prop :=
  ∃ seen, seen <+: segs ∧ seen.countP (NamesEntry ·) < seen.count up

/-- A path of a file that a listing shows: it is relative, and no segment starts with a dot. -/
def IsVisible (p : String) : Prop :=
  p.toList.head? ≠ some '/' ∧ ∀ s ∈ segments p.toList, s.head? ≠ some '.'

instance (p : String) : Decidable (IsVisible p) :=
  have : Decidable (∀ s ∈ segments p.toList, s.head? ≠ some '.') := List.decidableBAll _ _
  inferInstanceAs (Decidable (_ ∧ _))

/-- The paths that start with a step up. -/
def StartsUp (p : List Char) : Prop := p = up ∨ ∃ rest, p = up ++ '/' :: rest

theorem StartsUp.head? (h : StartsUp p) : p.head? = some '.' := by
  rcases h with rfl | ⟨rest, rfl⟩ <;> rfl

theorem startsUp_assemble {names : List (List Char)} (h : names.head? = some up) :
    StartsUp (assemble 0 names) := by
  obtain ⟨rest, rfl⟩ := List.head?_eq_some_iff.mp h
  cases rest with
  | nil => exact Or.inl rfl
  | cons next rest => exact Or.inr ⟨joinWith ['/'] (next :: rest), rfl⟩

/-- Behind a step up, a path stays outside. -/
theorem startsUp_normal (rest : List Char) : StartsUp (normal (up ++ '/' :: rest)) := by
  have hslashes : slashes (up ++ '/' :: rest) = up ++ '/' :: slashes rest := rfl
  have hresolved : (resolveSegments false (up :: segments (slashes rest))).head? = some up := by
    have hbottom : [up].getLast? = some up := rfl
    rw [resolveSegments, List.head?_reverse]
    exact getLast?_foldl_of_up hbottom _
  have hsegments : segments (up ++ '/' :: slashes rest) = up :: segments (slashes rest) :=
    splitAt_append_cons '/' up (slashes rest)
  rw [← hsegments] at hresolved
  rw [normal, hslashes]
  exact startsUp_assemble hresolved

/-- What is looked up for a path that starts with a step up starts with a dot. -/
theorem head?_normal_of_startsUp (h : StartsUp b) {e : List Char} (he : e ∈ endings) :
    (normal (b ++ e)).head? = some '.' := by
  rcases h with rfl | ⟨rest, rfl⟩
  · -- the step up with an ending is a name of dots, or goes on with an index file
    have hall : ∀ e ∈ endings, (normal (up ++ e)).head? = some '.' := by decide
    exact hall e he
  · rw [List.append_assoc, List.cons_append]
    exact (startsUp_normal (rest ++ e)).head?

/-- What is looked up for a path that starts with a slash starts with a slash. -/
theorem head?_normal_of_slash (h : p.head? = some '/') (e : List Char) :
    (normal (p ++ e)).head? = some '/' := by
  obtain ⟨rest, rfl⟩ := List.head?_eq_some_iff.mp h
  rw [normal, normalize_eq_assemble, head?_assemble _ fun _ => isNamed_of_mem_resolveSegments, Ne,
    leadingSlashes_eq_zero_iff, not_not]
  rfl

/-- A typed spelling starts as the path does. -/
theorem head?_typedSpelling? (h : typedSpelling? p = some q) : q.head? = p.head? := by
  have hsuffix : ".js".toList <:+ p := by
    by_contra hnot
    unfold typedSpelling? at h
    rw [if_neg (mt List.isSuffixOf_iff_suffix.mp hnot)] at h
    cases h
  obtain ⟨front, rfl⟩ := hsuffix
  rw [typedSpelling?_compiled] at h
  obtain rfl := Option.some.inj h
  have hdot : ".ts".toList.head? = ".js".toList.head? := by decide
  rw [List.head?_append, List.head?_append, hdot]

/-- All paths that are looked up for a joined path that starts with a step up or a slash start with
a dot or a slash. -/
theorem head?_of_mem_probes (hq : q ∈ probes specifier dir)
    (hbase : StartsUp (base specifier dir) ∨ (base specifier dir).head? = some '/') :
    q.head? = some '.' ∨ q.head? = some '/' := by
  rw [probes, List.mem_flatMap] at hq
  obtain ⟨e, he, hq⟩ := hq
  have hnormal : (normal (base specifier dir ++ e)).head? = some '.' ∨
      (normal (base specifier dir ++ e)).head? = some '/' :=
    hbase.imp (fun h => head?_normal_of_startsUp h he) fun h => head?_normal_of_slash h e
  rw [withTypedSpelling, List.mem_cons, Option.mem_toList] at hq
  rcases hq with rfl | htyped
  · exact hnormal
  · rwa [head?_typedSpelling? htyped]

/-- A visible path starts with neither a dot nor a slash. -/
theorem IsVisible.head? {p : String} (h : IsVisible p) :
    ¬(p.toList.head? = some '.' ∨ p.toList.head? = some '/') := by
  rintro (hdot | hslash)
  · obtain ⟨rest, hrest⟩ := List.head?_eq_some_iff.mp hdot
    obtain ⟨first, others, hsplit⟩ := List.exists_cons_of_ne_nil (splitAt_ne_nil '/' rest)
    have hsegments : segments p.toList = ('.' :: first) :: others := by
      rw [hrest, segments, splitAt_cons, if_neg (by decide), hsplit, consFirst]
    exact h.2 ('.' :: first) (by simp [hsegments]) rfl
  · exact h.1 hslash

/-- A joined path outside of the root starts with a step up, unless the importer is outside
itself. -/
theorem base_of_leavesRoot (hdir : '\\' ∉ dir) (h : LeavesRoot (segmentsRead specifier dir)) :
    StartsUp (base specifier dir) ∨ (base specifier dir).head? = some '/' := by
  by_cases hrelative : (slashes specifier).head? = some '/' ∨ dir.head? ≠ some '/'
  · obtain ⟨seen, hseen, hlt⟩ := h
    rw [base_eq_assemble hdir hrelative]
    exact Or.inl (startsUp_assemble (head?_resolveSegments_of_lt hseen hlt))
  · -- no importer of a project is like this, but its joined paths start with a slash
    rw [not_or, not_not] at hrelative
    obtain ⟨hslash, hdirSlash⟩ := hrelative
    have hjoin : (join (if dir = [] then here else dir) (slashes specifier)).head? = some '/' :=
      (head?_join hslash).mpr (head?_orHere.mpr hdirSlash)
    unfold base
    dsimp only
    rw [if_neg hslash]
    exact Or.inr (by simpa using head?_normal_of_slash hjoin [])

/-- **Leaving the root.** Among files that a listing shows, a specifier stands for none if reading
it leads out of the root at some point, wherever it goes from there. -/
theorem resolve?_eq_none_of_leavesRoot {isFile : String → Bool}
    (hfiles : ∀ p, isFile p = true → IsVisible p) (specifier importer : String)
    (h : LeavesRoot (segmentsRead specifier.toList (importerDir importer).toList)) :
    resolve? specifier importer isFile = none := by
  have hdir : '\\' ∉ (importerDir importer).toList := by
    rw [importerDir, String.toList_ofList]
    intro hmem
    exact slashes_ne_backslash (mem_of_mem_parent hmem) rfl
  unfold resolve? candidates
  rw [List.find?_eq_none]
  intro p hp hfile
  obtain ⟨q, hq, rfl⟩ := List.mem_map.mp hp
  have hhead := head?_of_mem_probes hq (base_of_leavesRoot hdir h)
  rw [← String.toList_ofList (l := q)] at hhead
  exact (hfiles _ hfile).head? hhead

/-- Up and out of the root, and back into a directory of the same name. -/
theorem resolve?_eq_none_of_leavesRoot_nestedFiles :
    LeavesRoot (segmentsRead "../../../../src/ui/page".toList
        (importerDir "src/ui/parts/head.ts").toList) ∧
      resolve? "../../../../src/ui/page" "src/ui/parts/head.ts" nestedFiles.contains = none := by
  have hfiles : ∀ p ∈ nestedFiles, IsVisible p := by decide
  have hread : segmentsRead "../../../../src/ui/page".toList
      (importerDir "src/ui/parts/head.ts").toList =
      ["src", "ui", "parts", "..", "..", "..", "..", "src", "ui", "page"].map String.toList := by
    decide
  have hleaves : LeavesRoot (segmentsRead "../../../../src/ui/page".toList
      (importerDir "src/ui/parts/head.ts").toList) := by
    rw [hread]
    exact ⟨["src", "ui", "parts", "..", "..", "..", ".."].map String.toList, by decide, by decide⟩
  refine ⟨hleaves, resolve?_eq_none_of_leavesRoot ?_ _ _ hleaves⟩
  intro p hp
  exact hfiles p (List.contains_iff_mem.mp hp)

end ScriptHealth.Specifier
