import Uplift.Files.Store
import Uplift.Step

/-!
# Undoing steps

Before a step changes a file, the file's content is put on the stack of its migration.
Unwinding a stack restores the records from the newest to the oldest; a record that
cannot be restored is reported, and the unwinding goes on.
-/

namespace Uplift

/-- What a file held before a step, none if it was not there. -/
structure UndoRecord where
  step : StepId
  path : Path
  content : Option String
  deriving DecidableEq, Repr, Inhabited

def UndoRecord.restore {σ : Type} [FileStore σ] (r : UndoRecord) (store : σ) :
    Except FileError σ :=
  FileStore.put store r.path r.content

/-- A record that could not be restored. -/
structure UndoFailure where
  step : StepId
  path : Path
  error : FileError
  deriving DecidableEq, Repr

def UndoFailure.message (f : UndoFailure) : String :=
  s!"failed to restore {f.path} (step {f.step}): {f.error.message}"

/-- The steps undone and the records that could not be restored, newest first. -/
structure UndoReport where
  restored : List StepId := []
  failures : List UndoFailure := []
  deriving DecidableEq, Repr, Inhabited

def UndoReport.isClean (r : UndoReport) : Bool := r.failures.isEmpty

/-- The records of each migration, the newest first. -/
abbrev UndoStacks := Keyed (List UndoRecord)

namespace UndoStacks

def stack (undo : UndoStacks) (id : String) : List UndoRecord := (undo.get? id).getD []

def depth (undo : UndoStacks) (id : String) : Nat := (undo.stack id).length

def hasRecords (undo : UndoStacks) (id : String) : Bool := 0 < undo.depth id

/-- Gives a migration this stack; an empty one is not kept. -/
def setStack (undo : UndoStacks) (id : String) : List UndoRecord → UndoStacks
  | [] => undo.erase id
  | records => undo.insert id records

def push (undo : UndoStacks) (id : String) (r : UndoRecord) : UndoStacks :=
  undo.setStack id (r :: undo.stack id)

/-- Forgets the records of a migration. -/
def discard (undo : UndoStacks) (id : String) : UndoStacks := undo.erase id

/-- Takes the newest record. -/
def pop? (undo : UndoStacks) (id : String) : Option (UndoRecord × UndoStacks) :=
  match undo.stack id with
  | [] => none
  | r :: rest => some (r, undo.setStack id rest)

/-- Takes the newest record if it belongs to this step. -/
def popStep? (undo : UndoStacks) (id : String) (step : StepId) :
    Option (UndoRecord × UndoStacks) :=
  (undo.pop? id).filter fun (r, _) => r.step = step

end UndoStacks

/-- Restores records in order. -/
def unwindRecords {σ : Type} [FileStore σ] (store : σ) : List UndoRecord → UndoReport × σ
  | [] => ({}, store)
  | r :: rest =>
    match r.restore store with
    | .ok store =>
      let (report, store) := unwindRecords store rest
      ({ report with restored := r.step :: report.restored }, store)
    | .error e =>
      let (report, store) := unwindRecords store rest
      ({ report with failures := ⟨r.step, r.path, e⟩ :: report.failures }, store)

/-- Unwinds the stack of a migration and leaves it empty. -/
def UndoStacks.unwind {σ : Type} [FileStore σ] (undo : UndoStacks) (id : String) (store : σ) :
    UndoReport × UndoStacks × σ :=
  let (report, store) := unwindRecords store (undo.stack id)
  (report, undo.discard id, store)

end Uplift
