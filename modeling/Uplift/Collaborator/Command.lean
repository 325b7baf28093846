import Uplift.Collaborator.Basic

/-!
# Test commands

A command counts as one test, which passes if the command succeeds. What a command does is up to
the machine: it may take its time and change files, and it may not start at all.
-/

namespace Uplift

structure Command where
  program : String
  args : List String := []
  /-- Where it runs. -/
  dir : Option Path := none
  deriving DecidableEq, Repr, Inhabited

/-- What came of a command. -/
structure Command.Exit (σ : Type) where
  /-- Whether the exit code is zero; an error if the command did not start. -/
  success : Except FileCause Bool
  after : σ
  /-- Milliseconds. -/
  elapsed : Nat := 0

/-- What a machine does with a command, given what is stored. -/
abbrev Machine (σ : Type) := Command → σ → Command.Exit σ

namespace Command

def line (c : Command) : String := " ".intercalate (c.program :: c.args)

/-- Runs the command as the only test. -/
def test {σ : Type} (machine : Machine σ) (c : Command) : Call σ TestReport := fun store =>
  let exit := machine c store
  let result : Except CollaboratorError TestReport :=
    match exit.success with
    | .ok true => .ok ⟨1, 0⟩
    | .ok false => .ok ⟨0, 1⟩
    | .error cause => .error (.process c.line cause)
  { result := result, after := exit.after, elapsed := exit.elapsed }

end Command

end Uplift
