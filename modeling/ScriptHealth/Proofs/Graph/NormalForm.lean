import ScriptHealth.Proofs.Graph.Chain
import Mathlib.Data.List.Induction

/-!
# Candidates in normal form

Everything that is looked up for a specifier is compared with the paths of project files as a text,
so it has to be in normal form. The joined path is brought into it, and so is the path behind each
ending; but a typed spelling is made from a path in normal form by changing its end, and nothing is
done to it afterwards.

What a normal form looks like is said here without the run that makes it: slashes in front, then
steps up, then names. Such paths are exactly the ones that are their own normal form. An ending
makes a name of the last segment whatever stands before it, so paths that differ only in the ending
are in normal form together.

## Main definitions

* `Path.IsNormal` — what a path in normal form looks like

## Main results

* `Path.isNormal_normalize`, `Path.IsNormal.normalize_eq` — normal forms look like that, and such a
  path is its own normal form
* `Path.IsNormal.change_ending` — another ending
* `Specifier.candidates_are_normal` — every path that is looked up for a specifier
-/

namespace ScriptHealth

namespace Path

open Text

variable {rooted : Bool} {stack : List (List Char)} {p : List Char}

/-! ### The shape of a normal form -/

/-- A path in normal form: the path that stays, or at most two slashes, behind them steps up, and
behind these names. There are steps up only where there is no slash in front. -/
inductive IsNormal : List Char → Prop
  | stay : IsNormal here
  | path {slashCount ups : Nat} {names : List (List Char)} (hslashes : slashCount ≤ 2)
      (hups : slashCount ≠ 0 → ups = 0) (hnames : ∀ s ∈ names, NamesEntry s ∧ '/' ∉ s)
      (hne : List.replicate slashCount '/' ++
        joinWith ['/'] (List.replicate ups up ++ names) ≠ []) :
      IsNormal (List.replicate slashCount '/' ++
        joinWith ['/'] (List.replicate ups up ++ names))

/-- A settled stack is read from its bottom as steps up and then names. -/
theorem Settled.exists_reverse_eq (h : Settled rooted stack) :
    ∃ (ups : Nat) (names : List (List Char)), stack.reverse = List.replicate ups up ++ names ∧
      (rooted = true → ups = 0) ∧ ∀ s ∈ names, NamesEntry s := by
  induction h with
  | ups k hroot =>
    refine ⟨k, [], ?_, hroot, List.forall_mem_nil _⟩
    rw [List.reverse_replicate, List.append_nil]
  | @entry s stack hs below ih =>
    obtain ⟨ups, names, hstack, hroot, hnames⟩ := ih
    refine ⟨ups, names ++ [s], ?_, hroot, ?_⟩
    · rw [List.reverse_cons, hstack, List.append_assoc]
    · intro t ht
      rcases List.mem_append.mp ht with ht | ht
      · exact hnames t ht
      · exact List.mem_singleton.mp ht ▸ hs

/-- Steps up and names are a settled stack. -/
theorem settled_ups_names {ups : Nat} {names : List (List Char)} (hroot : rooted = true → ups = 0)
    (hnames : ∀ s ∈ names, NamesEntry s) :
    Settled rooted (List.replicate ups up ++ names).reverse := by
  induction names using List.reverseRecOn with
  | nil =>
    rw [List.append_nil, List.reverse_replicate]
    exact .ups ups hroot
  | append_singleton names s ih =>
    rw [← List.append_assoc, List.reverse_append]
    have hs : NamesEntry s := hnames s (by simp)
    exact .entry hs (ih fun t ht => hnames t (List.mem_append_left [s] ht))

/-- The normal form of any path is in normal form. -/
theorem isNormal_normalize (p : List Char) : IsNormal (normalize p) := by
  have hsettled : Settled (leadingSlashes p != 0)
      ((segments p).foldl (pushSegment (leadingSlashes p != 0)) []) :=
    Settled.foldl (.ups 0 fun _ => rfl) (segments p)
  obtain ⟨ups, names, hsegments, hroot, hnames⟩ := hsettled.exists_reverse_eq
  have hresolved : resolveSegments (leadingSlashes p != 0) (segments p) =
      List.replicate ups up ++ names := hsegments
  have hslash : ∀ s ∈ names, '/' ∉ s := by
    intro s hs
    have hmem : s ∈ resolveSegments (leadingSlashes p != 0) (segments p) := by
      rw [hresolved]
      exact List.mem_append_right _ hs
    exact sep_notMem_of_mem_splitAt (mem_of_mem_resolveSegments hmem)
  unfold normalize
  dsimp only
  rw [hresolved]
  split
  · exact .stay
  · rename_i hne
    exact .path (leadingSlashes_le_two p) (fun hk => hroot (by simpa using hk))
      (fun s hs => ⟨hnames s hs, hslash s hs⟩) hne

/-- A path in normal form is its own normal form. -/
theorem IsNormal.normalize_eq (h : IsNormal p) : normalize p = p := by
  cases h with
  | stay => rfl
  | @path slashCount ups names hslashes hups hnames hne =>
    have hnamed : ∀ s ∈ List.replicate ups up ++ names, IsNamed s := by
      intro s hs
      rcases List.mem_append.mp hs with hs | hs
      · rw [List.eq_of_mem_replicate hs]
        decide
      · exact ⟨(hnames s hs).1.1, (hnames s hs).1.2.1, (hnames s hs).2⟩
    have hsettled : Settled (slashCount != 0) (List.replicate ups up ++ names).reverse :=
      settled_ups_names (fun hk => hups (by simpa using hk)) fun s hs => (hnames s hs).1
    have hassemble : List.replicate slashCount '/' ++
        joinWith ['/'] (List.replicate ups up ++ names) =
          assemble slashCount (List.replicate ups up ++ names) :=
      (if_neg hne).symm
    have hresolved : resolveSegments (slashCount != 0) (List.replicate ups up ++ names) =
        List.replicate ups up ++ names := by
      have hread := hsettled.foldl_reverse
      rw [List.reverse_reverse] at hread
      rw [resolveSegments, hread, List.reverse_reverse]
    rw [hassemble, normalize_assemble hslashes hnamed, hresolved]

theorem IsNormal.ne_nil (h : IsNormal p) : p ≠ [] := by
  cases h with
  | stay => exact List.cons_ne_nil _ _
  | path hslashes hups hnames hne => exact hne

/-- A path in normal form stays in normal form if its ending is replaced by another one. -/
theorem IsNormal.change_ending {front e e' : List Char} (h : IsNormal (front ++ e))
    (he : '/' ∉ e) (hlength : 3 ≤ e.length) (he' : '/' ∉ e') (hlength' : 3 ≤ e'.length) :
    IsNormal (front ++ e') := by
  -- both endings stand behind the same front in the normal form, and it is the given one
  obtain ⟨normalFront, hnormal⟩ := exists_normalize_append front
  have hfront : normalFront = front :=
    List.append_cancel_right ((hnormal e he hlength).symm.trans h.normalize_eq)
  rw [← hfront, ← hnormal e' he' hlength']
  exact isNormal_normalize _

end Path

namespace Specifier

open ScriptHealth.Path

theorem isNormal_typedSpelling? {p q : List Char} (hp : IsNormal p)
    (hq : typedSpelling? p = some q) : IsNormal q := by
  unfold typedSpelling? at hq
  split at hq
  · rename_i hsuffix
    obtain ⟨front, rfl⟩ := List.isSuffixOf_iff_suffix.mp hsuffix
    have hfront : (front ++ ".js".toList).take ((front ++ ".js".toList).length - 3) = front := by
      simp
    rw [hfront] at hq
    cases hq
    exact hp.change_ending (by decide) (by decide) (by decide) (by decide)
  · cases hq

/-- Every path that is looked up is in normal form. -/
theorem isNormal_of_mem_probes {specifier dir q : List Char} (hq : q ∈ probes specifier dir) :
    IsNormal q := by
  rw [probes, List.mem_flatMap] at hq
  obtain ⟨ending, -, hq⟩ := hq
  have hnormal : IsNormal (normal (base specifier dir ++ ending)) := isNormal_normalize _
  rw [withTypedSpelling, List.mem_cons, Option.mem_toList] at hq
  rcases hq with rfl | htyped
  · exact hnormal
  · exact isNormal_typedSpelling? hnormal htyped

/-- **Candidates in normal form.** Whatever the specifier and the directory of its importer are,
every path that is looked up is a text that is not empty, holds no backslash, and is its own normal
form: behind at most two slashes it has neither empty segments nor segments that stay, unless it is
the path that stays itself, and it has steps up only in front and only without a slash before
them. -/
theorem candidates_are_normal (specifier dir : String) {c : String}
    (hc : c ∈ candidates specifier dir) :
    c ≠ "" ∧ '\\' ∉ c.toList ∧ normal c.toList = c.toList ∧ IsNormal c.toList := by
  obtain ⟨q, hq, rfl⟩ := List.mem_map.mp hc
  have hnormal := isNormal_of_mem_probes hq
  have hback := backslash_notMem_probes hq
  rw [String.toList_ofList]
  refine ⟨?_, hback, ?_, hnormal⟩
  · intro hempty
    exact hnormal.ne_nil (String.ofList_eq_empty_iff.mp hempty)
  · rw [normal, slashes_eq_self hback, hnormal.normalize_eq]

/-- Two slashes stay in front, and the typed spelling of the joined path is in normal form. -/
theorem candidates_are_normal_doubleSlash :
    "//lib/b.ts" ∈ candidates "./a\\..\\b.js" "//lib/." ∧
      normal "//lib/b.ts".toList = "//lib/b.ts".toList ∧ IsNormal "//lib/b.ts".toList := by
  have hmem : "//lib/b.ts" ∈ candidates "./a\\..\\b.js" "//lib/." := by decide +kernel
  exact ⟨hmem, (candidates_are_normal _ _ hmem).2.2⟩

end Specifier

end ScriptHealth
