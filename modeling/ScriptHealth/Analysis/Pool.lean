/-!
# Tasks that finish in any order

The files of a project are worked on by several workers, and their results arrive in the order in
which the workers finish. Every result is put into the slot of its task, so the list of results does
not depend on that order.

## Main definitions

* `Pool.settle` puts the results of finished tasks into their slots
* `Pool.collect` is the list of results after all tasks have finished
-/

namespace ScriptHealth.Pool

variable {α β : Type}

/-- Put the result of task `i` into its slot; a number that is no task changes nothing. -/
def settle (f : α → β) (tasks : List α) (slots : List (Option β)) (i : Nat) : List (Option β) :=
  match tasks[i]? with
  | some task => slots.set i (some (f task))
  | none => slots

/-- The results of the tasks when they finish in the given order. -/
def collect (order : List Nat) (f : α → β) (tasks : List α) : List β :=
  (order.foldl (settle f tasks) (List.replicate tasks.length none)).filterMap id

end ScriptHealth.Pool
