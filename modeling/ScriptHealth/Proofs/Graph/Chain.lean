import ScriptHealth.Proofs.Source.NormalForm

/-!
# The order of looking up

A specifier is joined to the directory of its importer, and the joined path is looked up with one
ending after the other. Every path that ends as a compiled script is followed by its typed spelling.
Apart from that of the joined path itself, these typed spellings have been looked up before, since
the typed endings come before the compiled ones. So the answer is the first file of a plain chain.

## Main definitions

* `Specifier.chain` — the joined path, its typed spelling, and then the joined path with each ending
* `Specifier.lookups` — the chain of a specifier seen from an importer

## Main results

* `Specifier.find?_scriptEndings` — typed spellings have been looked up before
* `Specifier.find?_probes` — the paths that are looked up may be replaced by the chain
* `Specifier.find?_mono` — with more files, the first file of a list stands at most as far behind
* `Specifier.resolve?_takes_first_of_chain` — resolution by the chain
-/

namespace ScriptHealth.Specifier

open ScriptHealth.Path

/-! ### First hits -/

section FirstHit

variable {α : Type} {f g : α → Bool}

/-- What stood in a list before is not found first when it comes again. -/
theorem find?_append_cons_of_mem {before : List α} {x : α} (hx : x ∈ before) (f : α → Bool)
    (after : List α) : (before ++ x :: after).find? f = (before ++ after).find? f := by
  rw [List.find?_append, List.find?_append, List.find?_cons]
  cases hfx : f x with
  | false => rfl
  | true =>
    have hfound : (before.find? f).isSome = true := List.find?_isSome.mpr ⟨x, hx, hfx⟩
    obtain ⟨y, hy⟩ := Option.isSome_iff_exists.mp hfound
    rw [hy]
    rfl

/-- With more hits, the first one stands at most as far behind. -/
theorem find?_mono [DecidableEq α] (hfg : ∀ x, f x = true → g x = true) {l : List α} {x : α}
    (hx : l.find? f = some x) : ∃ y, l.find? g = some y ∧ l.idxOf y ≤ l.idxOf x := by
  induction l with
  | nil => cases hx
  | cons a l ih =>
    rw [List.find?_cons] at hx ⊢
    cases hga : g a with
    | true => exact ⟨a, rfl, by simp⟩
    | false =>
      have hfa : f a = false := by
        cases hfa : f a with
        | false => rfl
        | true => rw [hfg a hfa] at hga; cases hga
      rw [hfa] at hx
      obtain ⟨y, hy, hle⟩ := ih hx
      refine ⟨y, hy, ?_⟩
      -- neither of the two is the item in front
      have hya : a ≠ y := by
        rintro rfl
        rw [List.find?_some hy] at hga
        cases hga
      have hxa : a ≠ x := by
        rintro rfl
        rw [List.find?_some hx] at hfa
        cases hfa
      rw [List.idxOf_cons_ne _ hya, List.idxOf_cons_ne _ hxa]
      exact Nat.succ_le_succ hle

end FirstHit

/-! ### The chain -/

/-- The endings that are appended to a joined path, in order. -/
def plainEndings : List (List Char) :=
  [".ts".toList, ".tsx".toList, ".js".toList, ".jsx".toList, "/index.ts".toList,
   "/index.tsx".toList, "/index.js".toList, "/index.jsx".toList]

/-- The paths that a joined path stands for, in order: the path itself, its typed spelling if it
ends as a compiled script, and then the path with each of the endings, in normal form. -/
def chain (b : List Char) : List (List Char) :=
  b :: (typedSpelling? b).toList ++ plainEndings.map fun e => normal (b ++ e)

/-- The chain of a specifier seen from an importing file. -/
def lookups (specifier importer : String) : List String :=
  (chain (base specifier.toList (importerDir importer).toList)).map String.ofList

/-- The endings of scripts. -/
def scriptEndings : List (List Char) := [".ts".toList, ".tsx".toList, ".js".toList, ".jsx".toList]

/-- Endings without slashes stay at the end of a normal form, behind the same front. -/
theorem exists_normal_append (p : List Char) :
    ∃ front, ∀ e ∈ scriptEndings, normal (p ++ e) = front ++ e := by
  obtain ⟨front, hfront⟩ := exists_normalize_append (slashes p)
  refine ⟨front, ?_⟩
  intro e he
  have hplain : ∀ e ∈ scriptEndings, '\\' ∉ e ∧ '/' ∉ e ∧ 3 ≤ e.length := by decide
  obtain ⟨hback, hslash, hlength⟩ := hplain e he
  have hslashes : slashes (p ++ e) = slashes p ++ e := by
    rw [slashes, List.map_append]
    exact congrArg _ (slashes_eq_self hback)
  rw [normal, hslashes, hfront e hslash hlength]

/-- The typed spelling of a path with a compiled ending is the path with the typed ending. -/
theorem typedSpelling?_compiled (front : List Char) :
    typedSpelling? (front ++ ".js".toList) = some (front ++ ".ts".toList) := by
  have hsuffix : ".js".toList.isSuffixOf (front ++ ".js".toList) = true :=
    List.isSuffixOf_iff_suffix.mpr (List.suffix_append _ _)
  unfold typedSpelling?
  rw [if_pos hsuffix]
  simp

/-- Other endings have no typed spelling. -/
theorem typedSpelling?_eq_none {e : List Char} (hlength : 3 ≤ e.length)
    (he : ¬".js".toList <:+ e) (front : List Char) : typedSpelling? (front ++ e) = none := by
  unfold typedSpelling?
  rw [if_neg]
  intro hsuffix
  exact he (List.suffix_of_suffix_length_le (List.isSuffixOf_iff_suffix.mp hsuffix)
    (List.suffix_append front e) hlength)

/-- Among the endings of scripts, a typed spelling has been looked up with the typed ending. -/
theorem find?_scriptEndings (p : List Char) (f : List Char → Bool) :
    (scriptEndings.flatMap fun e => withTypedSpelling (normal (p ++ e))).find? f =
      (scriptEndings.map fun e => normal (p ++ e)).find? f := by
  obtain ⟨front, hfront⟩ := exists_normal_append p
  simp only [scriptEndings, List.forall_mem_cons] at hfront
  obtain ⟨hts, htsx, hjs, hjsx, -⟩ := hfront
  have hnone : ∀ e ∈ [".ts".toList, ".tsx".toList, ".jsx".toList],
      typedSpelling? (front ++ e) = none := by
    intro e he
    have hplain : ∀ e ∈ [".ts".toList, ".tsx".toList, ".jsx".toList],
        3 ≤ e.length ∧ ¬".js".toList <:+ e := by
      decide
    exact typedSpelling?_eq_none (hplain e he).1 (hplain e he).2 front
  simp only [List.forall_mem_cons] at hnone
  obtain ⟨hnoTs, hnoTsx, hnoJsx, -⟩ := hnone
  simp only [scriptEndings, List.flatMap_cons, List.flatMap_nil, List.map_cons, List.map_nil,
    withTypedSpelling, hts, htsx, hjs, hjsx, hnoTs, hnoTsx, hnoJsx, typedSpelling?_compiled,
    Option.toList_none, Option.toList_some, List.cons_append, List.nil_append]
  have hseen : front ++ ".ts".toList ∈
      [front ++ ".ts".toList, front ++ ".tsx".toList, front ++ ".js".toList] :=
    List.mem_cons_self
  exact find?_append_cons_of_mem hseen f [front ++ ".jsx".toList]

/-- A joined path is in normal form. -/
theorem normal_base (specifier dir : List Char) :
    normal (base specifier dir) = base specifier dir := by
  have hnormal (p : List Char) : normal (normal p) = normal p := by
    rw [normal, slashes_eq_self (backslash_notMem_normal p), normal, normalize_normalize]
  unfold base
  dsimp only
  split
  · exact hnormal _
  · exact hnormal _

/-- The paths that are looked up may be replaced by the chain. -/
theorem find?_probes (specifier dir : List Char) (f : List Char → Bool) :
    (probes specifier dir).find? f = (chain (base specifier dir)).find? f := by
  -- both lists go through the endings of scripts twice, with index files the second time
  have hprobes (b : List Char) : (endings.flatMap fun e => withTypedSpelling (normal (b ++ e))) =
      withTypedSpelling (normal b) ++
        ((scriptEndings.flatMap fun e => withTypedSpelling (normal (b ++ e))) ++
          scriptEndings.flatMap fun e =>
            withTypedSpelling (normal (b ++ "/index".toList ++ e))) := by
    simp [endings, scriptEndings]
  have hchain (b : List Char) : chain b = withTypedSpelling b ++
      ((scriptEndings.map fun e => normal (b ++ e)) ++
        scriptEndings.map fun e => normal (b ++ "/index".toList ++ e)) := by
    simp [chain, plainEndings, scriptEndings, withTypedSpelling]
  unfold probes
  dsimp only
  rw [hprobes, hchain, normal_base]
  simp only [List.find?_append, find?_scriptEndings]

/-- The target of a specifier is the first file of its chain. -/
theorem resolve?_eq_find?_lookups (specifier importer : String) (isFile : String → Bool) :
    resolve? specifier importer isFile = (lookups specifier importer).find? isFile := by
  unfold resolve? lookups candidates
  rw [List.find?_map, List.find?_map, find?_probes]

/-- **Resolution by the chain.** A specifier stands for the first file of its chain, and for nothing
if the chain has no file. With more files it still stands for something, and for nothing that comes
later in the chain. -/
theorem resolve?_takes_first_of_chain (specifier importer : String) (isFile : String → Bool) :
    resolve? specifier importer isFile = (lookups specifier importer).find? isFile ∧
      ∀ isFile' : String → Bool, (∀ p, isFile p = true → isFile' p = true) →
        ∀ target, resolve? specifier importer isFile = some target →
          ∃ target', resolve? specifier importer isFile' = some target' ∧
            (lookups specifier importer).idxOf target' ≤
              (lookups specifier importer).idxOf target := by
  refine ⟨resolve?_eq_find?_lookups specifier importer isFile, ?_⟩
  intro isFile' hmore target htarget
  rw [resolve?_eq_find?_lookups] at htarget ⊢
  exact find?_mono hmore htarget

/-- A compiled name stands for the typed source until the compiled script is there itself. -/
theorem resolve?_takes_first_of_chain_compiled :
    resolve? "./util.js" "src/main.ts" ["src/util.ts", "src/util.jsx"].contains =
        some "src/util.ts" ∧
      ∃ target,
        resolve? "./util.js" "src/main.ts" ["src/util.js", "src/util.ts", "src/util.jsx"].contains =
            some target ∧
          (lookups "./util.js" "src/main.ts").idxOf target ≤
            (lookups "./util.js" "src/main.ts").idxOf "src/util.ts" := by
  have hbefore : resolve? "./util.js" "src/main.ts" ["src/util.ts", "src/util.jsx"].contains =
      some "src/util.ts" := by
    decide +kernel
  refine ⟨hbefore, ?_⟩
  apply (resolve?_takes_first_of_chain "./util.js" "src/main.ts"
    ["src/util.ts", "src/util.jsx"].contains).2 _ _ "src/util.ts" hbefore
  intro p hp
  rw [List.contains_cons, hp, Bool.or_true]

end ScriptHealth.Specifier
