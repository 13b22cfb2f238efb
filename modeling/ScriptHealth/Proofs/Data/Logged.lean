import ScriptHealth.Logged
import ScriptHealth.Proofs.Data.Outcome

/-!
# Steps that log

A computation that logs is run from the records that are there, and it gives back all records with
its result. These lemmas take such a run apart into its steps, and they compare two runs step by
step. Most steps only add records, whatever records there are; such a step can be studied from an
empty log.

## Main definitions

* `Logged.Appends` — a step that only adds to the log
* `Logged.Yields` — a step that gives a value unless there is a fault

## Main results

* `Logged.bind_eq_ok` — a run that succeeds does so step by step
* `Logged.bind_congr`, `Logged.bind_map` — two runs side by side
* `Logged.Appends.bind` — a sequence only adds to the log if its steps do
-/

namespace ScriptHealth.Logged

variable {α β : Type} {x : Logged α} {f g : α → Logged β} {logs : List Log.Record}

/-- A run goes on alike if it does so from everything that its first step can give. -/
theorem bind_congr (h : ∀ a t, x logs = .ok (a, t) → f a t = g a t) :
    (x >>= f) logs = (x >>= g) logs := by
  change (x logs >>= fun p => f p.1 p.2) = (x logs >>= fun p => g p.1 p.2)
  cases hx : x logs with
  | error e => rfl
  | ok p => exact h p.1 p.2 hx

theorem ok_bind {a : α} {t : List Log.Record} (h : x logs = .ok (a, t)) :
    (x >>= f) logs = f a t := by
  change (x logs >>= fun p => f p.1 p.2) = _
  rw [h]
  rfl

theorem bind_eq_ok {b : β × List Log.Record} (h : (x >>= f) logs = .ok b) :
    ∃ a t, x logs = .ok (a, t) ∧ f a t = .ok b := by
  change (x logs >>= fun p => f p.1 p.2) = .ok b at h
  obtain ⟨p, hp, hf⟩ := Outcome.bind_eq_ok.mp h
  exact ⟨p.1, p.2, hp, hf⟩

/-- A step without records that gives a value. -/
theorem lift_ok (a : α) (logs : List Log.Record) :
    (liftM (Except.ok a : Except Fault α) : Logged α) logs = .ok (a, logs) := rfl

theorem eq_ok_of_lift {o : Except Fault α} {a : α} {t : List Log.Record}
    (h : (liftM o : Logged α) logs = .ok (a, t)) : o = .ok a := by
  cases o with
  | error e => cases h
  | ok b =>
    cases h
    rfl

theorem error_bind {e : Fault} (h : x logs = .error e) : (x >>= f) logs = .error e := by
  change (x logs >>= fun p => f p.1 p.2) = _
  rw [h]
  rfl

/-- A change of what a run ends with can wait until its end. -/
theorem bind_map {change : β × List Log.Record → β × List Log.Record}
    (h : ∀ a t, g a t = (f a t).map change) : (x >>= g) logs = ((x >>= f) logs).map change := by
  change (x logs >>= fun p => g p.1 p.2) = (x logs >>= fun p => f p.1 p.2).map change
  cases x logs with
  | error e => rfl
  | ok p => exact h p.1 p.2

/-- A step that only adds to the log, whatever the log holds. -/
def Appends (x : Logged α) : Prop := ∀ logs, x logs = (x []).map fun p => (p.1, logs ++ p.2)

theorem appends_lift (o : Except Fault α) : Appends (liftM o) := by
  intro logs
  cases o with
  | error e => rfl
  | ok a => exact congrArg (fun l => Except.ok (a, l)) (List.append_nil logs).symm

theorem appends_note (level : Level) (logger template : String) (arguments : List Log.Argument) :
    Appends (note level logger template arguments) := fun _ => rfl

theorem Appends.bind (hx : Appends x) (hf : ∀ a, Appends (f a)) : Appends (x >>= f) := by
  intro logs
  change (x logs >>= fun p => f p.1 p.2) = (x [] >>= fun p => f p.1 p.2).map _
  rw [hx logs]
  cases x [] with
  | error e => rfl
  | ok p =>
    change f p.1 (logs ++ p.2) = (f p.1 p.2).map _
    rw [hf p.1 (logs ++ p.2), hf p.1 p.2]
    cases f p.1 [] with
    | error e => rfl
    | ok q => exact congrArg (fun l => Except.ok (q.1, l)) (List.append_assoc logs p.2 q.2)

/-- Leaving a record and giving a value. -/
theorem appends_note_pure (level : Level) (logger template : String)
    (arguments : List Log.Argument) (a : α) :
    Appends (do
      note level logger template arguments
      return a) :=
  (appends_note level logger template arguments).bind fun _ => appends_lift (.ok a)

/-- What such a step gives does not depend on what was logged before. -/
theorem Appends.exists_of_eq_ok (hx : Appends x) {a : α} {t : List Log.Record}
    (h : x logs = .ok (a, t)) (logs' : List Log.Record) : ∃ t', x logs' = .ok (a, t') := by
  rw [hx logs] at h
  rw [hx logs']
  cases hrun : x [] with
  | error e =>
    rw [hrun] at h
    cases h
  | ok p =>
    rw [hrun] at h
    obtain ⟨rfl, -⟩ := Prod.mk.inj (Except.ok.inj h)
    exact ⟨logs' ++ p.2, rfl⟩

/-- A step that gives a value, whatever was logged before, unless one of some faults is there; then
it fails with one of them. -/
def Yields (E : Fault → Prop) (a : α) (x : Logged α) : Prop :=
  ∀ logs, (∃ f, x logs = .error f ∧ E f) ∨ (∀ f, ¬E f) ∧ ∃ t, x logs = .ok (a, t)

theorem Yields.map {E : Fault → Prop} {a : α} (h : Yields E a x) (g : α → β) :
    Yields E (g a) (x >>= fun b => pure (g b)) := by
  intro logs
  rcases h logs with ⟨f, hf, hE⟩ | ⟨hnone, t, ht⟩
  · exact .inl ⟨f, error_bind hf, hE⟩
  · exact .inr ⟨hnone, t, ok_bind ht⟩

end ScriptHealth.Logged
