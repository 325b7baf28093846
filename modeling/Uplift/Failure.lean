import Uplift.Check.Validator
import Uplift.Files.Error

/-!
# Failures of steps

A step fails because a rule is violated, because a collaborator fails, or because a
collaborator takes too long.
-/

namespace Uplift

inductive CollaboratorError where
  | file (error : FileError)
  | badJson (path : Path) (reason : String)
  | process (command : String) (cause : FileCause)
  | timedOut (milliseconds : Nat)
  | lost (reason : String)
  | failed (reason : String)
  deriving DecidableEq, Repr

def CollaboratorError.message : CollaboratorError → String
  | file error => error.message
  | badJson path reason => s!"invalid JSON in {path}: {reason}"
  | process command cause => s!"failed to run '{command}': {cause.message}"
  | timedOut milliseconds => s!"timed out after {milliseconds}ms"
  | lost reason => s!"collaborator task failed: {reason}"
  | failed reason => reason

inductive StepError where
  | violated (step : StepId) (violation : Violation)
  | blocked (step : StepId) (error : CollaboratorError)
  | overdue (step : StepId) (milliseconds : Nat)
  deriving DecidableEq, Repr

namespace StepError

def ofCollaborator (step : StepId) : CollaboratorError → StepError
  | .timedOut milliseconds => overdue step milliseconds
  | error => blocked step error

def message : StepError → String
  | violated step v => s!"step {step}: {v.check.label} check failed: {v.message}"
  | blocked step error => s!"step {step}: {error.message}"
  | overdue step milliseconds => s!"step {step}: timed out after {milliseconds}ms"

def step : StepError → StepId
  | violated step _ | blocked step _ | overdue step _ => step

end StepError

end Uplift
