import ScriptHealth.Graph.Resolve
import Mathlib.Data.List.Basic

/-!
# Normal forms of paths

Bringing a path into normal form rearranges its segments and adds nothing to them but slashes and
the dot of the empty path. Specifiers are looked up in normal form only, so what they resolve to
holds no backslash and is its own slashed spelling.

## Main results

* `Path.mem_of_mem_resolveSegments` — the segments of a normal form are segments of the path
* `Path.mem_normalize` — the characters of a normal form
* `Specifier.backslash_notMem_probes` — no path that is looked up holds a backslash
-/

namespace ScriptHealth

namespace Text

/-- The pieces of a text hold only characters of the text. -/
theorem mem_of_mem_splitAt {sep c : Char} {s piece : List Char} (hpiece : piece ∈ splitAt sep s)
    (hc : c ∈ piece) : c ∈ s := by
  induction s generalizing piece with
  | nil =>
    rw [splitAt_nil, List.mem_singleton] at hpiece
    exact hpiece ▸ hc
  | cons d s ih =>
    rw [splitAt_cons] at hpiece
    split at hpiece
    · rcases List.mem_cons.mp hpiece with rfl | hrest
      · exact absurd hc List.not_mem_nil
      · exact List.mem_cons_of_mem d (ih hrest hc)
    · -- the character belongs to the first of the pieces behind it
      obtain ⟨p, ps, hps⟩ := List.exists_cons_of_ne_nil (splitAt_ne_nil sep s)
      rw [hps] at ih hpiece
      rw [consFirst, List.mem_cons] at hpiece
      rcases hpiece with rfl | hrest
      · rcases List.mem_cons.mp hc with rfl | hin
        · exact List.mem_cons_self
        · exact List.mem_cons_of_mem d (ih List.mem_cons_self hin)
      · exact List.mem_cons_of_mem d (ih (List.mem_cons_of_mem p hrest) hc)

/-- A joined text holds the characters of its pieces and of the separator. -/
theorem mem_joinWith {sep : List Char} {c : Char} {pieces : List (List Char)}
    (hc : c ∈ joinWith sep pieces) : c ∈ sep ∨ ∃ p ∈ pieces, c ∈ p := by
  induction pieces with
  | nil => exact absurd hc List.not_mem_nil
  | cons p ps ih =>
    cases ps with
    | nil => exact Or.inr ⟨p, List.mem_cons_self, hc⟩
    | cons q qs =>
      rw [joinWith, List.mem_append, List.mem_append] at hc
      · rcases hc with (hp | hsep) | hrest
        · exact Or.inr ⟨p, List.mem_cons_self, hp⟩
        · exact Or.inl hsep
        · rcases ih hrest with hsep | ⟨r, hr, hcr⟩
          · exact Or.inl hsep
          · exact Or.inr ⟨r, List.mem_cons_of_mem p hr, hcr⟩
      · exact List.cons_ne_nil q qs

end Text

namespace Path

open Text

/-- Taking a segment adds at most that segment. -/
theorem mem_pushSegment {rooted : Bool} {stack : List (List Char)} {segment q : List Char}
    (h : q ∈ pushSegment rooted stack segment) : q ∈ stack ∨ q = segment := by
  unfold pushSegment at h
  split at h
  · exact Or.inl h
  · split at h
    · -- a step up removes a segment, or stays if there is none to remove
      rename_i hup
      subst hup
      cases stack with
      | nil =>
        cases rooted with
        | true => exact absurd h List.not_mem_nil
        | false => exact Or.inr (List.mem_singleton.mp h)
      | cons top rest =>
        dsimp only at h
        split at h
        · rcases List.mem_cons.mp h with hq | hq
          · exact Or.inr hq
          · exact Or.inl hq
        · exact Or.inl (List.mem_cons_of_mem top h)
    · rcases List.mem_cons.mp h with hq | hq
      · exact Or.inr hq
      · exact Or.inl hq

theorem mem_foldl_pushSegment {rooted : Bool} {segs stack : List (List Char)} {q : List Char}
    (h : q ∈ segs.foldl (pushSegment rooted) stack) : q ∈ stack ∨ q ∈ segs := by
  induction segs generalizing stack with
  | nil => exact Or.inl h
  | cons s segs ih =>
    rcases ih h with hstack | hsegs
    · rcases mem_pushSegment hstack with hq | rfl
      · exact Or.inl hq
      · exact Or.inr List.mem_cons_self
    · exact Or.inr (List.mem_cons_of_mem s hsegs)

/-- The segments of a normal form are segments of the path. -/
theorem mem_of_mem_resolveSegments {rooted : Bool} {segs : List (List Char)} {q : List Char}
    (h : q ∈ resolveSegments rooted segs) : q ∈ segs := by
  rw [resolveSegments, List.mem_reverse] at h
  exact (mem_foldl_pushSegment h).resolve_left List.not_mem_nil

/-- A normal form holds characters of the path, slashes, and the dot of the empty path. -/
theorem mem_normalize {p : List Char} {c : Char} (h : c ∈ normalize p) :
    c ∈ p ∨ c = '/' ∨ c = '.' := by
  unfold normalize at h
  dsimp only at h
  split at h
  · exact Or.inr (Or.inr (List.mem_singleton.mp h))
  · rcases List.mem_append.mp h with hslash | hbody
    · exact Or.inr (Or.inl (List.eq_of_mem_replicate hslash))
    · rcases mem_joinWith hbody with hsep | ⟨q, hq, hcq⟩
      · exact Or.inr (Or.inl (List.mem_singleton.mp hsep))
      · exact Or.inl (mem_of_mem_splitAt (mem_of_mem_resolveSegments hq) hcq)

/-- A path seen from a directory holds characters of both, and the one between them. -/
theorem mem_join {dir p : List Char} {c : Char} (hc : c ∈ join dir p) :
    c ∈ dir ∨ c ∈ p ∨ c = '/' := by
  unfold join at hc
  split at hc
  · exact .inr (.inl hc)
  · split at hc
    · rcases List.mem_append.mp hc with hdir | hp
      · exact .inl hdir
      · exact .inr (.inl hp)
    · rcases List.mem_append.mp hc with hdir | hp
      · exact .inl hdir
      · rcases List.mem_cons.mp hp with rfl | hp
        · exact .inr (.inr rfl)
        · exact .inr (.inl hp)

/-- A path without backslashes is its own slashed spelling. -/
theorem slashes_eq_self {p : List Char} (h : '\\' ∉ p) : slashes p = p := by
  calc slashes p = p.map id := by
        apply List.map_congr_left
        intro c hc
        have hne : c ≠ '\\' := fun hback => h (hback ▸ hc)
        exact if_neg hne
    _ = p := List.map_id p

end Path

namespace Specifier

/-- The normal form of any path holds no backslash. -/
theorem backslash_notMem_normal (p : List Char) : '\\' ∉ normal p := by
  intro h
  rcases Path.mem_normalize h with hmem | hslash | hdot
  · exact Path.slashes_ne_backslash hmem rfl
  · exact absurd hslash (by decide)
  · exact absurd hdot (by decide)

/-- The typed spelling of a path holds a backslash only if the path does. -/
theorem backslash_notMem_typedSpelling? {p q : List Char} (hp : '\\' ∉ p)
    (hq : typedSpelling? p = some q) : '\\' ∉ q := by
  unfold typedSpelling? at hq
  split at hq
  · cases hq
    rw [List.mem_append, not_or]
    exact ⟨fun h => hp (List.mem_of_mem_take h), by decide⟩
  · exact absurd hq (by simp)

/-- No path that is looked up holds a backslash. -/
theorem backslash_notMem_probes {specifier dir q : List Char} (hq : q ∈ probes specifier dir) :
    '\\' ∉ q := by
  rw [probes, List.mem_flatMap] at hq
  obtain ⟨ending, -, hq⟩ := hq
  have hnormal := backslash_notMem_normal (base specifier dir ++ ending)
  rw [withTypedSpelling, List.mem_cons, Option.mem_toList] at hq
  rcases hq with rfl | htyped
  · exact hnormal
  · exact backslash_notMem_typedSpelling? hnormal htyped

/-- What an import resolves to is a file of the project without backslashes. -/
theorem resolve?_eq_some {specifier importer target : String} {isFile : String → Bool}
    (h : resolve? specifier importer isFile = some target) :
    isFile target = true ∧ '\\' ∉ target.toList := by
  refine ⟨List.find?_some h, ?_⟩
  have hmem := List.mem_of_find?_eq_some h
  rw [candidates, List.mem_map] at hmem
  obtain ⟨q, hq, rfl⟩ := hmem
  rw [String.toList_ofList]
  exact backslash_notMem_probes hq

end Specifier

end ScriptHealth
