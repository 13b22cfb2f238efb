import ScriptHealth.Proofs.Source.Path
import ScriptHealth.Proofs.Workspace.Way

/-!
# The normal form of a path

The segments of a path are put on a stack, one after the other: a name goes on top, a step up takes
a name away, and where there is no name to take away it stays. What is left is a stack of names on
top of steps up, and reading such a stack again leaves it as it is. So a normal form is its own
normal form.

Two facts about the run of the stack are kept apart from this. An ending with at least three
characters makes a name of any segment, so it stands at the end of the normal form as it is. And a
run that has taken more steps up than it has seen names has a step up at the bottom of its stack for
the rest of the way.

## Main definitions

* `Path.NamesEntry` — a segment that names an entry of a directory
* `Path.Settled` — the stacks that reading segments leaves

## Main results

* `Path.Settled.pushSegment`, `Path.Settled.foldl_reverse` — reading segments leaves settled stacks,
  and reads settled stacks back
* `Path.normalize_normalize` — a normal form is its own normal form
* `Path.exists_normalize_append` — endings stay at the end of a normal form
* `Path.resolveSegments_down_up` — going down and up again leads back
* `Path.head?_resolveSegments_of_lt` — a run that leaves the directory that it starts in
-/

namespace ScriptHealth

namespace Text

/-- What is appended to a text belongs to its last piece if it holds no separator. -/
theorem exists_splitAt_append (sep : Char) (s : List Char) :
    ∃ front last, ∀ e, sep ∉ e → splitAt sep (s ++ e) = front ++ [last ++ e] := by
  -- the pieces are chosen before the ending, so the same ones do for all endings
  induction s with
  | nil => exact ⟨[], [], fun e he => splitAt_of_notMem he⟩
  | cons c s ih =>
    obtain ⟨front, last, hsplit⟩ := ih
    by_cases hc : c = sep
    · refine ⟨[] :: front, last, fun e he => ?_⟩
      rw [List.cons_append, splitAt_cons, if_pos hc, hsplit e he, List.cons_append]
    · cases front with
      | nil =>
        refine ⟨[], c :: last, fun e he => ?_⟩
        rw [List.cons_append, splitAt_cons, if_neg hc, hsplit e he]
        rfl
      | cons piece front =>
        refine ⟨(c :: piece) :: front, last, fun e he => ?_⟩
        rw [List.cons_append, splitAt_cons, if_neg hc, hsplit e he]
        rfl

/-- What is appended to the last piece stands at the end of the joined text. -/
theorem joinWith_append_last (sep : List Char) (front : List (List Char)) (last e : List Char) :
    joinWith sep (front ++ [last ++ e]) = joinWith sep (front ++ [last]) ++ e := by
  cases front with
  | nil => rfl
  | cons piece front =>
    have hjoin (x : List Char) : joinWith sep (piece :: front ++ [x]) =
        joinWith sep (piece :: front) ++ sep ++ x :=
      joinWith_append (List.cons_ne_nil piece front) (List.cons_ne_nil x [])
    rw [hjoin, hjoin, List.append_assoc _ last e]

end Text

namespace Path

open Text

variable {rooted : Bool} {stack segs : List (List Char)} {s p : List Char}

/-! ### The stack of segments -/

/-- A segment that names an entry of a directory: it is not empty and neither `.` nor `..`. -/
def NamesEntry (s : List Char) : Prop := s ≠ [] ∧ s ≠ here ∧ s ≠ up

instance (s : List Char) : Decidable (NamesEntry s) := inferInstanceAs (Decidable (_ ∧ _ ∧ _))

/-- A segment says nothing, goes up, or names an entry. -/
theorem segment_cases (s : List Char) : (s = [] ∨ s = here) ∨ s = up ∨ NamesEntry s := by
  unfold NamesEntry
  tauto

theorem pushSegment_blank (h : s = [] ∨ s = here) : pushSegment rooted stack s = stack :=
  if_pos h

theorem pushSegment_entry (h : NamesEntry s) : pushSegment rooted stack s = s :: stack := by
  unfold pushSegment
  rw [if_neg (by simp [h.1, h.2.1]), if_neg h.2.2]

/-- A step up takes away what is on top, unless that is a step up. -/
theorem pushSegment_up_of_ne (h : s ≠ up) : pushSegment rooted (s :: stack) up = stack :=
  if_neg h

theorem pushSegment_up_up : pushSegment false (up :: stack) up = up :: up :: stack := rfl

/-- Where there are only steps up, a step up stays. -/
theorem pushSegment_up_replicate (k : Nat) :
    pushSegment false (List.replicate k up) up = List.replicate (k + 1) up := by
  cases k <;> rfl

/-- The stacks that reading segments leaves, with the latest segment on top: names on top of steps
up, which there are none of behind a slash. -/
inductive Settled (rooted : Bool) : List (List Char) → Prop
  | ups (k : Nat) (hroot : rooted = true → k = 0) : Settled rooted (List.replicate k up)
  | entry {s : List Char} {stack : List (List Char)} (hs : NamesEntry s)
      (below : Settled rooted stack) : Settled rooted (s :: stack)

namespace Settled

/-- One more segment leaves a settled stack. -/
theorem pushSegment (h : Settled rooted stack) (s : List Char) :
    Settled rooted (pushSegment rooted stack s) := by
  rcases segment_cases s with hblank | rfl | hentry
  · rw [pushSegment_blank hblank]
    exact h
  · cases h with
    | ups k hroot =>
      cases rooted with
      | true =>
        -- at the root there is nothing to go up to, and the step is dropped
        obtain rfl := hroot rfl
        exact .ups 0 fun _ => rfl
      | false =>
        rw [pushSegment_up_replicate]
        exact .ups (k + 1) (by simp)
    | entry hs below =>
      rw [pushSegment_up_of_ne hs.2.2]
      exact below
  · rw [pushSegment_entry hentry]
    exact .entry hentry h

theorem foldl (h : Settled rooted stack) (segs : List (List Char)) :
    Settled rooted (segs.foldl (Path.pushSegment rooted) stack) := by
  induction segs generalizing stack with
  | nil => exact h
  | cons s segs ih => exact ih (h.pushSegment s)

/-- A settled stack is read back from its bottom to its top. -/
theorem foldl_reverse (h : Settled rooted stack) :
    stack.reverse.foldl (Path.pushSegment rooted) [] = stack := by
  induction h with
  | ups k hroot =>
    rw [List.reverse_replicate]
    cases rooted with
    | true =>
      rw [hroot rfl]
      rfl
    | false =>
      induction k with
      | zero => rfl
      | succ k ih =>
        rw [List.replicate_succ', List.foldl_append, ih (by simp), List.foldl_cons, List.foldl_nil,
          pushSegment_up_replicate, List.replicate_succ']
  | entry hs below ih =>
    rw [List.reverse_cons, List.foldl_append, ih, List.foldl_cons, List.foldl_nil,
      pushSegment_entry hs]

end Settled

/-- Segments in normal form are their own normal form. -/
theorem resolveSegments_resolveSegments (rooted : Bool) (segs : List (List Char)) :
    resolveSegments rooted (resolveSegments rooted segs) = resolveSegments rooted segs := by
  have hsettled : Settled rooted (segs.foldl (pushSegment rooted) []) :=
    Settled.foldl (.ups 0 fun _ => rfl) segs
  unfold resolveSegments
  rw [hsettled.foldl_reverse]

/-- Segments that say nothing may be left out. -/
theorem resolveSegments_filter (rooted : Bool) (segs : List (List Char)) :
    resolveSegments rooted (segs.filter fun s => s != [] && s != here) =
      resolveSegments rooted segs := by
  have hfoldl (stack : List (List Char)) :
      (segs.filter fun s => s != [] && s != here).foldl (pushSegment rooted) stack =
        segs.foldl (pushSegment rooted) stack := by
    induction segs generalizing stack with
    | nil => rfl
    | cons s segs ih =>
      rw [List.foldl_cons, ← ih, List.filter_cons]
      split
      · rfl
      · rename_i hblank
        rw [pushSegment_blank (by simpa [or_iff_not_imp_left] using hblank)]
  unfold resolveSegments
  rw [hfoldl]

/-- A name at the end stays there. -/
theorem resolveSegments_append_entry (h : NamesEntry s) (rooted : Bool) (segs : List (List Char)) :
    resolveSegments rooted (segs ++ [s]) = resolveSegments rooted segs ++ [s] := by
  unfold resolveSegments
  rw [List.foldl_append, List.foldl_cons, List.foldl_nil, pushSegment_entry h, List.reverse_cons]

/-! ### Normal forms -/

theorem normalize_eq_assemble (p : List Char) : normalize p =
    assemble (leadingSlashes p) (resolveSegments (leadingSlashes p != 0) (namedSegments p)) := by
  rw [namedSegments, resolveSegments_filter]
  rfl

theorem isNamed_of_mem_resolveSegments
    (h : s ∈ resolveSegments rooted (namedSegments p)) : IsNamed s :=
  isNamed_of_mem_namedSegments (mem_of_mem_resolveSegments h)

theorem leadingSlashes_le_two (p : List Char) : leadingSlashes p ≤ 2 := by
  unfold leadingSlashes
  split <;> simp

/-- An ending that does not start with a slash adds no slash in front. -/
theorem leadingSlashes_append {e : List Char} (he : e.head? ≠ some '/') (p : List Char) :
    leadingSlashes (p ++ e) = leadingSlashes p := by
  have hzero : leadingSlashes e = 0 := leadingSlashes_eq_zero_iff.mpr he
  -- the first three characters decide
  rcases p with _ | ⟨a, _ | ⟨b, _ | ⟨c, p⟩⟩⟩
  · exact hzero
  · by_cases ha : a = '/'
    · cases e <;> simp_all [leadingSlashes]
    · simp [leadingSlashes, ha]
  · by_cases ha : a = '/'
    · by_cases hb : b = '/'
      · cases e <;> simp_all [leadingSlashes]
      · simp [leadingSlashes, ha, hb]
    · simp [leadingSlashes, ha]
  · by_cases ha : a = '/'
    · by_cases hb : b = '/'
      · by_cases hc : c = '/' <;> simp [leadingSlashes, ha, hb, hc]
      · simp [leadingSlashes, ha, hb]
    · simp [leadingSlashes, ha]

/-- Slashes in front of a path name nothing. -/
theorem namedSegments_dropWhile (p : List Char) :
    namedSegments (p.dropWhile (· == '/')) = namedSegments p := by
  induction p with
  | nil => rfl
  | cons c p ih =>
    by_cases hc : c = '/'
    · subst hc
      rw [List.dropWhile_cons_of_pos (by simp), ih]
      rfl
    · rw [List.dropWhile_cons_of_neg (by simpa using hc)]

theorem isNamed_of_namesEntry {names : List (List Char)} (hnames : ∀ s ∈ names, NamesEntry s)
    (hslash : ∀ s ∈ names, '/' ∉ s) : ∀ s ∈ names, IsNamed s := fun s hs =>
  ⟨(hnames s hs).1, (hnames s hs).2.1, hslash s hs⟩

theorem joinWith_eq_assemble {names : List (List Char)} (hne : names ≠ [])
    (hnames : ∀ s ∈ names, IsNamed s) : joinWith ['/'] names = assemble 0 names :=
  (if_neg (joinWith_ne_nil hne hnames)).symm

/-- Names between slashes are read back. -/
theorem namedSegments_joinWith {names : List (List Char)} (hnames : ∀ s ∈ names, IsNamed s) :
    namedSegments (joinWith ['/'] names) = names := by
  by_cases hne : names = []
  · subst hne
    rfl
  · rw [joinWith_eq_assemble hne hnames, namedSegments_assemble 0 hnames]

/-- Names between slashes do not start with a slash. -/
theorem head?_joinWith {names : List (List Char)} (hnames : ∀ s ∈ names, IsNamed s) :
    (joinWith ['/'] names).head? ≠ some '/' := by
  by_cases hne : names = []
  · simp [hne, joinWith]
  · rw [joinWith_eq_assemble hne hnames, Ne, head?_assemble 0 hnames]
    simp

/-- An assembled path has the slashes in front that it was given, if these are at most two. -/
theorem leadingSlashes_assemble {k : Nat} (hk : k ≤ 2) {names : List (List Char)}
    (hnames : ∀ s ∈ names, IsNamed s) : leadingSlashes (assemble k names) = k := by
  unfold assemble
  dsimp only
  split
  · rename_i hnil
    obtain ⟨hk, -⟩ := List.append_eq_nil_iff.mp hnil
    rw [(List.replicate_eq_nil_iff _).mp hk]
    rfl
  · rw [leadingSlashes_append (head?_joinWith hnames)]
    match k with
    | 0 | 1 | 2 => rfl

/-- The normal form of an assembled path. -/
theorem normalize_assemble {k : Nat} (hk : k ≤ 2) {names : List (List Char)}
    (hnames : ∀ s ∈ names, IsNamed s) :
    normalize (assemble k names) = assemble k (resolveSegments (k != 0) names) := by
  rw [normalize_eq_assemble, leadingSlashes_assemble hk hnames, namedSegments_assemble k hnames]

/-- A normal form is its own normal form. -/
theorem normalize_normalize (p : List Char) : normalize (normalize p) = normalize p := by
  rw [normalize_eq_assemble p, normalize_assemble (leadingSlashes_le_two p) fun _ =>
    isNamed_of_mem_resolveSegments, resolveSegments_resolveSegments]

/-- An ending of three characters makes a name of what it is appended to. -/
theorem namesEntry_append {e : List Char} (he : 3 ≤ e.length) (s : List Char) :
    NamesEntry (s ++ e) := by
  have hlength : 3 ≤ (s ++ e).length := by
    rw [List.length_append]
    omega
  refine ⟨?_, ?_, ?_⟩ <;> intro h <;> simp [h, here, up] at hlength

/-- Endings without a slash stay at the end of a normal form, behind the same front. -/
theorem exists_normalize_append (p : List Char) : ∃ front, ∀ e : List Char, '/' ∉ e →
    3 ≤ e.length → normalize (p ++ e) = front ++ e := by
  obtain ⟨segs, last, hsplit⟩ := exists_splitAt_append '/' p
  let resolved := resolveSegments (leadingSlashes p != 0) segs
  -- the last segment may say nothing or go up by itself, but it is a name with any such ending
  refine ⟨List.replicate (leadingSlashes p) '/' ++ joinWith ['/'] (resolved ++ [last]), ?_⟩
  intro e hslash hlength
  have hhead : e.head? ≠ some '/' := fun h => hslash (List.mem_of_head? h)
  have hne : e ≠ [] := fun h => by simp [h] at hlength
  have hsegments : segments (p ++ e) = segs ++ [last ++ e] := hsplit e hslash
  have hbody : joinWith ['/'] (resolveSegments (leadingSlashes p != 0) (segments (p ++ e))) =
      joinWith ['/'] (resolved ++ [last]) ++ e := by
    rw [hsegments, resolveSegments_append_entry (namesEntry_append hlength last),
      joinWith_append_last]
  unfold normalize
  dsimp only
  rw [leadingSlashes_append hhead, hbody, if_neg (by simp [hne]), List.append_assoc]

/-! ### The directory of a path -/

theorem splitLast_append {front name : List Char} (hname : '/' ∉ name)
    (hfront : front.reverse.takeWhile (· != '/') = []) :
    splitLast (front ++ name) = (front, name) := by
  have hlast : (front ++ name).reverse.takeWhile (· != '/') = name.reverse := by
    rw [List.reverse_append, List.takeWhile_append_of_pos, hfront, List.append_nil]
    intro c hc
    have hne : c ≠ '/' := fun h => hname (h ▸ List.mem_reverse.mp hc)
    simpa using hne
  unfold splitLast
  rw [hlast]
  simp

/-- Names between slashes do not end with a slash. -/
theorem getLast?_joinWith {names : List (List Char)} (hnames : ∀ s ∈ names, IsNamed s) :
    (joinWith ['/'] names).getLast? ≠ some '/' := by
  rcases List.eq_nil_or_concat' names with rfl | ⟨front, last, rfl⟩
  · simp [joinWith]
  · have hlast : IsNamed last := hnames last (by simp)
    intro hslash
    rw [← List.nil_append last, joinWith_append_last,
      List.getLast?_append_of_ne_nil _ hlast.1] at hslash
    exact hlast.2.2 (List.mem_of_getLast? hslash)

/-- The directory of a path in normal form. -/
theorem parent_joinWith {front : List (List Char)} (hfront : ∀ s ∈ front, IsNamed s)
    {name : List Char} (hname : '/' ∉ name) :
    parent (joinWith ['/'] (front ++ [name])) = joinWith ['/'] front := by
  unfold parent
  by_cases hne : front = []
  · subst hne
    have hempty : ([] : List Char).reverse.takeWhile (· != '/') = [] := rfl
    have hsplit : splitLast (joinWith ['/'] ([] ++ [name])) = ([], name) :=
      splitLast_append hname hempty
    rw [hsplit]
    rfl
  · have hsplit : splitLast (joinWith ['/'] (front ++ [name])) =
        (joinWith ['/'] front ++ ['/'], name) := by
      rw [joinWith_append hne (List.cons_ne_nil name [])]
      exact splitLast_append hname (by simp)
    have hhead : (joinWith ['/'] front).reverse.head? ≠ some '/' := by
      rw [List.head?_reverse]
      exact getLast?_joinWith hfront
    have hstripped : (joinWith ['/'] front).reverse.dropWhile (· == '/') =
        (joinWith ['/'] front).reverse := by
      cases hreverse : (joinWith ['/'] front).reverse with
      | nil => rfl
      | cons c rest =>
        have hc : c ≠ '/' := by simpa [hreverse] using hhead
        simp [hc]
    rw [hsplit]
    simp [hstripped, joinWith_ne_nil hne hfront]

/-- The directory of a path holds only characters of the path. -/
theorem mem_of_mem_parent {c : Char} (h : c ∈ parent p) : c ∈ p := by
  unfold parent splitLast at h
  dsimp only at h
  split at h
  · exact List.mem_of_mem_take h
  · rw [List.mem_reverse] at h
    have hhead := (List.dropWhile_sublist _).subset h
    exact List.mem_of_mem_take (List.mem_reverse.mp hhead)

/-! ### Down and up -/

/-- Names stay where they are. -/
theorem foldl_entries (h : ∀ s ∈ segs, NamesEntry s) (rooted : Bool) (stack : List (List Char)) :
    segs.foldl (pushSegment rooted) stack = segs.reverse ++ stack := by
  induction segs generalizing stack with
  | nil => rfl
  | cons s segs ih =>
    obtain ⟨hs, hsegs⟩ := List.forall_mem_cons.mp h
    rw [List.foldl_cons, pushSegment_entry hs, ih hsegs, List.reverse_cons, List.append_assoc,
      List.singleton_append]

/-- As many steps up as names before them lead back. -/
theorem foldl_down_up (h : ∀ s ∈ segs, NamesEntry s) (rooted : Bool) (stack : List (List Char)) :
    (segs ++ List.replicate segs.length up).foldl (pushSegment rooted) stack = stack := by
  induction segs generalizing stack with
  | nil => rfl
  | cons s segs ih =>
    obtain ⟨hs, hsegs⟩ := List.forall_mem_cons.mp h
    -- the first name is taken away by the last step up
    rw [List.length_cons, List.replicate_succ', List.cons_append, ← List.append_assoc,
      List.foldl_cons, pushSegment_entry hs, List.foldl_append, ih hsegs, List.foldl_cons,
      List.foldl_nil, pushSegment_up_of_ne hs.2.2]

/-- Going down and up again leads back to where the names before it lead. -/
theorem resolveSegments_down_up {front dirs below : List (List Char)}
    (hfront : ∀ s ∈ front, NamesEntry s) (hdirs : ∀ s ∈ dirs, NamesEntry s)
    (hbelow : ∀ s ∈ below, NamesEntry s) (rooted : Bool) :
    resolveSegments rooted (front ++ dirs ++ (List.replicate dirs.length up ++ below)) =
      front ++ below := by
  unfold resolveSegments
  rw [List.append_assoc, ← List.append_assoc dirs, List.foldl_append, List.foldl_append,
    foldl_down_up hdirs, foldl_entries hfront, foldl_entries hbelow]
  simp

/-! ### Leaving the directory at the start -/

/-- A step up at the bottom of the stack stays there. -/
theorem getLast?_foldl_of_up (h : stack.getLast? = some up) (segs : List (List Char)) :
    (segs.foldl (pushSegment false) stack).getLast? = some up := by
  induction segs generalizing stack with
  | nil => exact h
  | cons s segs ih =>
    apply ih
    rcases segment_cases s with hblank | rfl | hentry
    · rwa [pushSegment_blank hblank]
    · cases stack with
      | nil => rfl
      | cons top rest =>
        by_cases htop : top = up
        · subst htop
          rw [pushSegment_up_up, List.getLast?_cons, h]
          rfl
        · -- the step up at the bottom is below what is taken away
          rw [pushSegment_up_of_ne htop]
          cases rest with
          | nil => exact absurd (Option.some.inj h) htop
          | cons next rest => exact h
    · rw [pushSegment_entry hentry, List.getLast?_cons, h]
      rfl

/-- Without a step up at its bottom, a stack has the names that no step up has taken away. -/
theorem getLast?_foldl_or_length (h : up ∉ stack) (segs : List (List Char)) :
    (segs.foldl (pushSegment false) stack).getLast? = some up ∨
      (segs.foldl (pushSegment false) stack).length + segs.count up =
        stack.length + segs.countP (NamesEntry ·) := by
  induction segs generalizing stack with
  | nil => exact Or.inr rfl
  | cons s segs ih =>
    rw [List.foldl_cons, List.count_cons, List.countP_cons]
    rcases segment_cases s with hblank | rfl | hentry
    · have hcounts : (s == up) = false ∧ ¬NamesEntry s := by
        rcases hblank with rfl | rfl <;> decide
      rw [pushSegment_blank hblank]
      simpa [hcounts] using ih h
    · cases stack with
      | nil =>
        -- this is where the run leaves the directory that it started in
        exact Or.inl (getLast?_foldl_of_up rfl segs)
      | cons top rest =>
        rw [List.mem_cons, not_or] at h
        obtain ⟨htop, hrest⟩ := h
        rw [pushSegment_up_of_ne (Ne.symm htop)]
        refine (ih hrest).imp_right fun hlength => ?_
        have hname : ¬NamesEntry up := fun hup => hup.2.2 rfl
        simp [hname]
        omega
    · rw [pushSegment_entry hentry]
      have hstack : up ∉ s :: stack := by
        rw [List.mem_cons, not_or]
        exact ⟨Ne.symm hentry.2.2, h⟩
      refine (ih hstack).imp_right fun hlength => ?_
      rw [List.length_cons] at hlength
      simp [hentry, hentry.2.2]
      omega

/-- A run that at some point has taken more steps up than it has seen names starts with a step
up. -/
theorem head?_resolveSegments_of_lt {seen : List (List Char)} (hseen : seen <+: segs)
    (hlt : seen.countP (NamesEntry ·) < seen.count up) :
    (resolveSegments false segs).head? = some up := by
  obtain ⟨rest, rfl⟩ := hseen
  have hempty : up ∉ ([] : List (List Char)) := List.not_mem_nil
  have hseen := getLast?_foldl_or_length hempty seen
  rw [resolveSegments, List.head?_reverse, List.foldl_append]
  apply getLast?_foldl_of_up
  apply hseen.resolve_right
  rw [List.length_nil]
  omega

end Path

end ScriptHealth
