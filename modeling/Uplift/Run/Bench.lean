import Uplift.Collaborator.Basic
import Uplift.Timestamp
import Uplift.Undo

/-!
# The workbench of a run

A run works on a store through calls with a deadline. A call that misses it fails, but its
effect still comes: it is waited for before the next call begins, so effects come in the
order of the calls.
-/

namespace Uplift

structure Bench (σ : Type) where
  store : σ
  undo : UndoStacks := []
  /-- Effects of calls that missed their deadline and are still to come. -/
  overdue : List (σ → σ) := []
  /-- Calls made so far. -/
  calls : Nat := 0
  /-- Milliseconds spent on calls so far. -/
  waited : Nat := 0

/-- How a run calls its collaborators, and what may come between. -/
structure Conditions (σ : Type) where
  deadline : Nat
  started : Timestamp := ⟨0, 0⟩
  /-- Milliseconds that a call takes beside its own, by the number of calls before it. -/
  pace : Nat → Nat := fun _ => 0
  /-- Whether the run is cancelled, by the number of attempted steps. -/
  cancelled : Nat → σ → Bool := fun _ _ => false

namespace Bench

variable {σ α : Type}

/-- Waits for all overdue effects. -/
def settle (b : Bench σ) : Bench σ :=
  { b with store := b.overdue.foldl (fun store effect => effect store) b.store, overdue := [] }

def call (k : Conditions σ) (c : Call σ α) (b : Bench σ) :
    Except CollaboratorError α × Bench σ :=
  let b := b.settle
  let reply := c b.store
  let elapsed := reply.elapsed + k.pace b.calls
  let b := { b with calls := b.calls + 1 }
  if k.deadline < elapsed then
    (.error (.timedOut k.deadline),
      { b with overdue := [fun store => (c store).after], waited := b.waited + k.deadline })
  else (reply.result, { b with store := reply.after, waited := b.waited + elapsed })

def time (k : Conditions σ) (b : Bench σ) : Timestamp := k.started.addMillis b.waited

end Bench

end Uplift
