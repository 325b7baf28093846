import Uplift.Run.Bench

/-!
# Running a step

A step that writes a file first has the file's content recorded. It is then applied
through its collaborator, and its rules are checked on what is there. If anything fails
behind the record, the record is taken back and the file restored.
-/

namespace Uplift

variable {σ : Type} [FileStore σ]

def Call.readCurrent (path : Path) : Call σ (Option String) :=
  .query fun store => ofFile (FileStore.read? store path)

def Call.put (path : Path) (content : Option String) : Call σ Unit :=
  .change fun store => ofFile (FileStore.put store path content)

namespace Step

/-- What carries out a step: a call, or nothing for a test update without content. -/
def action (c : Collaborators σ) (s : Step) : Except CollaboratorError (Option (Call σ Unit)) :=
  match s.kind, s.transformed with
  | .dependencyUpdate, _ => .ok (some (c.dependencies s))
  | .configChange, _ => .ok (some (c.config s))
  | .testUpdate, none => .ok none
  | .codeTransformation, none =>
    .error (.failed "code transformation without transformed content")
  | _, content => .ok (some (.put s.path content))

/-- Whether the content to check is to be read back. -/
def isReadBack (s : Step) : Bool := s.kind = .dependencyUpdate || s.kind = .configChange

def failure (s : Step) (e : CollaboratorError) : StepError := .ofCollaborator s.id e

def check (v : Validator) (s : Step) (content : Option String) :
    Except StepError (List Diagnostic) :=
  match v.checkStep s content with
  | .ok diagnostics => .ok diagnostics
  | .error violation => .error (.violated s.id violation)

/-- Carries out an action if there is one. -/
def perform (k : Conditions σ) (action : Option (Call σ Unit)) (b : Bench σ) :
    Except CollaboratorError Unit × Bench σ :=
  match action with
  | none => (.ok (), b)
  | some c => b.call k c

/-- The content that the rules are checked on. -/
def outcome (k : Conditions σ) (s : Step) (b : Bench σ) :
    Except CollaboratorError (Option String) × Bench σ :=
  if s.isReadBack then b.call k (.readCurrent s.path) else (.ok s.transformed, b)

/-- Applies a step and checks its rules. -/
def apply (c : Collaborators σ) (k : Conditions σ) (s : Step) (b : Bench σ) :
    Except StepError (List Diagnostic) × Bench σ :=
  match s.action c with
  | .error e => (.error (s.failure e), b)
  | .ok action =>
    match perform k action b with
    | (.error e, b) => (.error (s.failure e), b)
    | (.ok (), b) =>
      match outcome k s b with
      | (.error e, b) => (.error (s.failure e), b)
      | (.ok content, b) => (s.check c.validator content, b)

/-- Takes back the newest record if it is the step's, and restores its file. -/
def takeBack (k : Conditions σ) (id : String) (s : Step) (b : Bench σ) : Bench σ :=
  match b.undo.popStep? id s.id with
  | none => b
  | some (r, undo) => ({ b with undo := undo }.call k (.put r.path r.content)).2

/-- Whether a code step meets other content than it was planned for. -/
def isStale (s : Step) (current : Option String) : Bool :=
  s.kind = .codeTransformation && current ≠ s.original

/-- Runs a step whose file is recorded. -/
def runRecorded (c : Collaborators σ) (k : Conditions σ) (id : String) (s : Step)
    (current : Option String) (b : Bench σ) : Except StepError (List Diagnostic) × Bench σ :=
  let recorded := { b with undo := b.undo.push id ⟨s.id, s.path, current⟩ }
  match s.apply c k recorded with
  | (.ok diagnostics, b) => (.ok diagnostics, b)
  | (.error e, b) => (.error e, s.takeBack k id b)

/-- Runs a step of the migration `id`; a dry run checks its rules and does no more. -/
def run (c : Collaborators σ) (k : Conditions σ) (id : String) (dryRun : Bool) (s : Step)
    (b : Bench σ) : Except StepError (List Diagnostic) × Bench σ :=
  if dryRun then (s.check c.validator s.transformed, b)
  else if s.writesFile then
    match b.call k (.readCurrent s.path) with
    | (.error e, b) => (.error (s.failure e), b)
    | (.ok current, b) =>
      if s.isStale current then
        (.error (s.failure (.failed s!"{s.path} changed since the plan was created")), b)
      else s.runRecorded c k id current b
  else s.apply c k b

end Step

end Uplift
