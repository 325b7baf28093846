import Uplift.Failure
import Uplift.Files.Store
import Uplift.Plan

/-!
# Collaborators

What a run leaves to others: the backup, the package manifest, the build configuration,
the tests, and the validator. A call is a function of the store; it may change the store
even if it fails, and it takes some time.
-/

namespace Uplift

/-- What a call came to. -/
structure Reply (σ α : Type) where
  result : Except CollaboratorError α
  after : σ
  /-- Milliseconds. -/
  elapsed : Nat := 0

abbrev Call (σ α : Type) := σ → Reply σ α

namespace Call

variable {σ α : Type}

/-- A call that leaves the store as it is. -/
def query (f : σ → Except CollaboratorError α) : Call σ α := fun store => ⟨f store, store, 0⟩

/-- A call that changes the store unless it fails. -/
def change (f : σ → Except CollaboratorError σ) : Call σ Unit := fun store =>
  match f store with
  | .ok after => ⟨.ok (), after, 0⟩
  | .error e => ⟨.error e, store, 0⟩

end Call

/-- How many tests passed and failed. -/
structure TestReport where
  passed : Nat := 0
  failed : Nat := 0
  deriving DecidableEq, Repr, Inhabited

structure Collaborators (σ : Type) where
  /-- Copies the files of a plan and names the place. -/
  backup : Plan → Call σ String
  dependencies : Step → Call σ Unit
  config : Step → Call σ Unit
  tests : Call σ TestReport
  validator : Validator := Validator.builtin

/-- A failed file operation as a failure of the collaborator. -/
def ofFile {α : Type} (r : Except FileError α) : Except CollaboratorError α :=
  match r with
  | .ok a => .ok a
  | .error e => .error (.file e)

end Uplift
