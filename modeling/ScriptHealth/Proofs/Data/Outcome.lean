import Mathlib.Data.List.Forall2

/-!
# Steps that may fail

Readers of records run step after step, and the first failure ends them. These lemmas take a run
that succeeded apart into its steps, and keep two runs side by side.

## Main definitions

* `Outcome.FailsWith` — every failure of a run has a property
* `Outcome.Both` — two runs that both succeed, with related results

## Main results

* `Outcome.bind_eq_ok` — a sequence succeeds if each of its steps does
* `Outcome.mapM_eq_ok_iff` — a list of steps succeeds item by item
* `Outcome.exists_of_mem_mapM` — each of its results comes from one item
* `Outcome.foldlM_invariant` — what every step of a run keeps holds at its end
* `Outcome.FailsWith.bind` — a sequence fails as one of its steps does
* `Outcome.Both.bind` — sequences stay side by side if their steps do
-/

namespace ScriptHealth.Outcome

variable {ε α β γ σ : Type}

theorem ok_bind (a : α) (f : α → Except ε β) : ((.ok a : Except ε α) >>= f) = f a := rfl

/-- A sequence succeeds exactly if its first step does and the others do with its result. -/
theorem bind_eq_ok {x : Except ε α} {f : α → Except ε β} {b : β} :
    (x >>= f) = .ok b ↔ ∃ a, x = .ok a ∧ f a = .ok b := by
  cases x with
  | error e => exact ⟨fun h => (nomatch h), fun ⟨_, h, _⟩ => (nomatch h)⟩
  | ok a =>
    refine ⟨fun h => ⟨a, rfl, h⟩, ?_⟩
    rintro ⟨_, ⟨⟩, h⟩
    exact h

theorem exists_bind_eq_ok {x : Except ε α} {f : α → Except ε β} :
    (∃ b, (x >>= f) = .ok b) ↔ ∃ a, x = .ok a ∧ ∃ b, f a = .ok b := by
  simp only [bind_eq_ok]
  rw [exists_comm]
  exact exists_congr fun a => exists_and_left

theorem eq_ok_of_toOption {x : Except ε α} {a : α} (h : x.toOption = some a) : x = .ok a := by
  cases x with
  | error e => cases h
  | ok b =>
    cases h
    rfl

/-- A check before the other steps succeeds exactly if it does not apply. -/
theorem check_eq_ok {bad : Bool} {e : ε} {f : Unit → Except ε β} {b : β} :
    (if bad = true then throw e >>= f else f ()) = .ok b ↔ bad = false ∧ f () = .ok b := by
  cases bad with
  | true => exact ⟨fun h => (nomatch h), fun ⟨h, _⟩ => (nomatch h)⟩
  | false => exact ⟨fun h => ⟨rfl, h⟩, fun ⟨_, h⟩ => h⟩

/-- A list of steps succeeds exactly if they succeed item by item. -/
theorem mapM_eq_ok_iff {f : α → Except ε β} {xs : List α} {ys : List β} :
    xs.mapM f = .ok ys ↔ List.Forall₂ (fun x y => f x = .ok y) xs ys := by
  induction xs generalizing ys with
  | nil =>
    rw [List.mapM_nil, List.forall₂_nil_left_iff]
    constructor
    · rintro ⟨⟩
      rfl
    · rintro rfl
      rfl
  | cons x xs ih =>
    rw [List.mapM_cons, bind_eq_ok, List.forall₂_cons_left_iff]
    constructor
    · rintro ⟨y, hy, hrest⟩
      obtain ⟨zs, hzs, hys⟩ := bind_eq_ok.mp hrest
      cases hys
      exact ⟨y, zs, hy, ih.mp hzs, rfl⟩
    · rintro ⟨y, zs, hy, hzs, rfl⟩
      exact ⟨y, hy, bind_eq_ok.mpr ⟨zs, ih.mpr hzs, rfl⟩⟩

theorem forM_eq_ok_iff {f : α → Except ε Unit} {xs : List α} :
    xs.forM f = .ok () ↔ ∀ x ∈ xs, f x = .ok () := by
  induction xs with
  | nil => exact ⟨fun _ _ hx => absurd hx List.not_mem_nil, fun _ => rfl⟩
  | cons x xs ih =>
    rw [List.forall_mem_cons, ← ih]
    refine bind_eq_ok.trans ?_
    exact ⟨fun ⟨_, hx, hxs⟩ => ⟨hx, hxs⟩, fun ⟨hx, hxs⟩ => ⟨(), hx, hxs⟩⟩

theorem mapM_congr {f g : α → Except ε β} {xs : List α} (h : ∀ x ∈ xs, f x = g x) :
    xs.mapM f = xs.mapM g := by
  induction xs with
  | nil => rfl
  | cons x xs ih =>
    rw [List.mapM_cons, List.mapM_cons, h x List.mem_cons_self,
      ih fun y hy => h y (List.mem_cons_of_mem x hy)]

/-- What is made of the results of steps may be made in the steps. -/
theorem map_mapM (g : β → γ) (f : α → Except ε β) (xs : List α) :
    (xs.mapM f).map (List.map g) = xs.mapM fun x => (f x).map g := by
  induction xs with
  | nil => rfl
  | cons x xs ih =>
    rw [List.mapM_cons, List.mapM_cons, ← ih]
    cases f x with
    | error e => rfl
    | ok y =>
      rw [ok_bind]
      cases xs.mapM f with
      | error e => rfl
      | ok ys => rfl

/-- Every item of the second of two matched lists is matched with one of the first. -/
theorem exists_of_mem_right {R : α → β → Prop} {xs : List α} {ys : List β}
    (h : List.Forall₂ R xs ys) {y : β} (hy : y ∈ ys) : ∃ x ∈ xs, R x y := by
  induction h with
  | nil => exact absurd hy List.not_mem_nil
  | @cons a b as bs hab _ ih =>
    rcases List.mem_cons.mp hy with rfl | hmem
    · exact ⟨a, List.mem_cons_self, hab⟩
    · obtain ⟨x, hx, hxy⟩ := ih hmem
      exact ⟨x, List.mem_cons_of_mem a hx, hxy⟩

/-- Every result of a list of steps is the result of one of them. -/
theorem exists_of_mem_mapM {f : α → Except ε β} {xs : List α} {ys : List β}
    (h : xs.mapM f = .ok ys) {y : β} (hy : y ∈ ys) : ∃ x ∈ xs, f x = .ok y :=
  exists_of_mem_right (mapM_eq_ok_iff.mp h) hy

/-- What every step of a run keeps holds at its end. -/
theorem foldlM_invariant {step : σ → α → Except ε σ} (P : σ → Prop) {xs : List α}
    (hstep : ∀ s x t, x ∈ xs → P s → step s x = .ok t → P t) {s t : σ} (hs : P s)
    (h : xs.foldlM step s = .ok t) : P t := by
  induction xs generalizing s with
  | nil =>
    cases h
    exact hs
  | cons x xs ih =>
    rw [List.foldlM_cons] at h
    obtain ⟨u, hu, hrest⟩ := bind_eq_ok.mp h
    -- the invariant has moved to `u`, from which the other steps run
    exact ih (fun s y t hy => hstep s y t (List.mem_cons_of_mem x hy))
      (hstep s x u List.mem_cons_self hs hu) hrest

/-! ### Runs that fail -/

/-- Every failure of a run has a property. -/
def FailsWith (P : ε → Prop) (x : Except ε α) : Prop := ∀ e, x = .error e → P e

section FailsWith

variable {P Q : ε → Prop} {x : Except ε α}

theorem FailsWith.ok (a : α) : FailsWith P (.ok a : Except ε α) := fun _ h => nomatch h

theorem FailsWith.error {e : ε} (h : P e) : FailsWith P (.error e : Except ε α) := by
  rintro _ ⟨⟩
  exact h

theorem FailsWith.mono (h : FailsWith P x) (hPQ : ∀ e, P e → Q e) : FailsWith Q x :=
  fun e he => hPQ e (h e he)

/-- A sequence fails as one of its steps does. -/
theorem FailsWith.bind {f : α → Except ε β} (h : FailsWith P x)
    (hstep : ∀ a, x = .ok a → FailsWith P (f a)) : FailsWith P (x >>= f) := by
  intro e he
  cases x with
  | error _ =>
    cases he
    exact h e rfl
  | ok a => exact hstep a rfl e he

theorem FailsWith.map {f : α → β} (h : FailsWith P x) : FailsWith P (x.map f) := by
  cases x with
  | ok a => exact .ok (f a)
  | error e => exact .error (h e rfl)

theorem FailsWith.mapM {f : α → Except ε β} {xs : List α} (h : ∀ x ∈ xs, FailsWith P (f x)) :
    FailsWith P (xs.mapM f) := by
  induction xs with
  | nil =>
    rw [List.mapM_nil]
    exact .ok []
  | cons x xs ih =>
    rw [List.mapM_cons]
    refine (h x List.mem_cons_self).bind fun y _ => ?_
    exact (ih fun z hz => h z (List.mem_cons_of_mem x hz)).bind fun ys _ => .ok (y :: ys)

theorem FailsWith.forM {f : α → Except ε Unit} {xs : List α} (h : ∀ x ∈ xs, FailsWith P (f x)) :
    FailsWith P (xs.forM f) := by
  induction xs with
  | nil => exact .ok ()
  | cons x xs ih =>
    exact (h x List.mem_cons_self).bind fun _ _ => ih fun z hz => h z (List.mem_cons_of_mem x hz)

end FailsWith

/-- A run that cannot fail succeeds. -/
theorem exists_ok_of_failsWith_false {x : Except ε α} (h : FailsWith (fun _ => False) x) :
    ∃ a, x = .ok a := by
  cases x with
  | error e => exact (h e rfl).elim
  | ok a => exact ⟨a, rfl⟩

theorem map_eq_error {f : α → β} {x : Except ε α} {e : ε} : x.map f = .error e ↔ x = .error e := by
  cases x with
  | error d => exact ⟨by rintro ⟨⟩; rfl, by rintro ⟨⟩; rfl⟩
  | ok a => exact ⟨nofun, nofun⟩

/-! ### Two runs side by side -/

/-- Two runs that both succeed, with related results. -/
def Both (R : α → β → Prop) (x : Except ε α) (y : Except ε β) : Prop :=
  ∃ a b, x = .ok a ∧ y = .ok b ∧ R a b

section Both

variable {α' β' : Type} {R : α → α' → Prop} {S : β → β' → Prop} {x : Except ε α}
  {y : Except ε α'}

theorem Both.ok {a : α} {b : α'} (h : R a b) : Both R (.ok a : Except ε α) (.ok b : Except ε α') :=
  ⟨a, b, rfl, rfl, h⟩

/-- Sequences stay side by side if their steps do. -/
theorem Both.bind {f : α → Except ε β} {g : α' → Except ε β'} (h : Both R x y)
    (hstep : ∀ a b, R a b → Both S (f a) (g b)) : Both S (x >>= f) (y >>= g) := by
  obtain ⟨a, b, rfl, rfl, hab⟩ := h
  exact hstep a b hab

end Both

end ScriptHealth.Outcome
