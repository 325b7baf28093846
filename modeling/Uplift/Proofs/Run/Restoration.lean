import Uplift.Proofs.Run.Atomicity
import Uplift.Proofs.Run.Backup
import Uplift.Proofs.Run.Ending
import Uplift.Proofs.Run.Trials

/-!
# An aborted run restores the files

Between two steps, unwinding the stack of the run would bring back the files as they were
before the first step (`Underway`). Every attempted step keeps that, whether it comes
through, fails, or has nothing to do (`attempt_underway`), and so do all steps in a row
(`attemptAll_underway`). An aborted run that is undone and began on an empty stack
therefore ends where it began.
-/

namespace Uplift

namespace Execution

variable {c : Collaborators Memory} {k : Conditions Memory} {s : Step} {plan : Plan}
  {p : Progress Memory}

/-! ### Early ends -/

def StopsAt (c : Collaborators Memory) (k : Conditions Memory) (p : Progress Memory)
    (s : Step) : Prop :=
  k.cancelled p.attempted p.bench.store = true ∨
    s.risk.aborts = true ∧
      ∃ e, (s.run c k p.run.id p.run.plan.request.dryRun p.bench).1 = .error e

def EndsEarly (c : Collaborators Memory) (k : Conditions Memory) (p : Progress Memory)
    (steps : List Step) : Prop :=
  ∃ done s rest, steps = done ++ s :: rest ∧ (attemptAll c k done p).aborted = false ∧
    StopsAt c k (attemptAll c k done p) s

theorem aborted_attempt_of_stopsAt (running : p.aborted = false) (stops : StopsAt c k p s) :
    (attempt c k p s).aborted = true := by
  unfold attempt
  rw [running, if_neg Bool.false_ne_true]
  by_cases cancelled : k.cancelled p.attempted p.bench.store = true
  · rw [if_pos cancelled]
    rfl
  · rw [if_neg cancelled]
    obtain cancelled' | ⟨aborts, e, failed⟩ := stops
    · exact absurd cancelled' cancelled
    · rcases ran : s.run c k p.run.id p.run.plan.request.dryRun p.bench with ⟨result, bench⟩
      rw [ran] at failed
      obtain rfl : result = .error e := failed
      dsimp only
      rw [aborted_stumbled, aborts]
      rfl

theorem aborted_of_endsEarly {steps : List Step} (early : EndsEarly c k p steps) :
    (attemptAll c k steps p).aborted = true := by
  obtain ⟨done, s, rest, rfl, running, stops⟩ := early
  have stopped := aborted_attempt_of_stopsAt running stops
  rw [attemptAll, List.foldl_append, List.foldl_cons]
  exact (congrArg Progress.aborted (attemptAll_of_aborted stopped rest)).trans stopped

/-! ### Between two steps -/

/-- A run of `plan` between two steps: unwinding its stack would bring back `origin`. -/
structure Underway (plan : Plan) (origin : Memory) (p : Progress Memory) : Prop where
  ownId : p.run.id = plan.id
  ownPlan : p.run.plan = plan
  running : p.run.status = .running
  undoes : origin.Agrees (p.bench.settle.store.restoreAll (p.bench.undo.stack plan.id))

variable {origin : Memory}

theorem Underway.booked {p' : Progress Memory} (h : Underway plan origin p)
    (booked : Progress.Booked p p') : Underway plan origin p' :=
  ⟨booked.id.trans h.ownId, booked.plan.trans h.ownPlan, booked.status.trans h.running,
    booked.bench ▸ h.undoes⟩

theorem undoes_of_atomic {b : Bench Memory} {id : String}
    {ran : Except StepError (List Diagnostic) × Bench Memory} (atomic : Step.Atomic id s b ran)
    (undoes : origin.Agrees (b.settle.store.restoreAll (b.undo.stack id))) :
    origin.Agrees (ran.2.settle.store.restoreAll (ran.2.undo.stack id)) := by
  obtain ⟨result, b'⟩ := ran
  refine undoes.trans ?_
  cases result with
  | error e =>
    rw [atomic.undo id]
    exact Memory.restoreAll_agrees atomic.files _
  | ok diagnostics =>
    rw [atomic.stack, Step.recordsOn]
    cases writes : s.writesFile with
    | false => exact Memory.restoreAll_agrees (atomic.idle writes) _
    | true => exact Memory.restoreAll_cons_agrees atomic.change s.id _

theorem attempt_underway (stay : c.StayOnPath) (real : plan.request.dryRun = false)
    (h : Underway plan origin p) (s : Step) : Underway plan origin (attempt c k p s) := by
  have runs : p.Runs plan := ⟨h.ownId, h.ownPlan, h.running⟩
  obtain ⟨id, own, running⟩ := attempt_runs (c := c) (k := k) runs s
  refine ⟨id, own, running, ?_⟩
  obtain ⟨-, same⟩ | ⟨-, ran⟩ := attempt_bench (c := c) (k := k) runs s
  · rw [same]
    exact h.undoes
  · rw [ran, real]
    exact undoes_of_atomic (Step.attempted_step_atomic stay k plan.id s p.bench) h.undoes

theorem attemptAll_underway (stay : c.StayOnPath) (real : plan.request.dryRun = false)
    (h : Underway plan origin p) (steps : List Step) :
    Underway plan origin (attemptAll c k steps p) :=
  attemptAll_invariant (fun _ p => Underway plan origin p)
    (fun _ _ s _ h => attempt_underway stay real h s) h

/-- What earlier runs of the plan left on its stack would be undone as well. -/
theorem prepare_underway (c : Collaborators Memory) (k : Conditions Memory) (plan : Plan)
    (b : Bench Memory) :
    Underway plan ((prepare c k plan b).2.bench.settle.store.restoreAll (b.undo.stack plan.id))
      (prepare c k plan b).2 := by
  obtain ⟨id, own, running, undo, -⟩ := prepare_effect c k plan b
  refine ⟨id, own, running, ?_⟩
  rw [undo]
  exact Memory.Agrees.refl _

theorem prepare_underway_of_fresh (c : Collaborators Memory) (k : Conditions Memory)
    {b : Bench Memory} (fresh : b.undo.stack plan.id = []) :
    Underway plan (prepare c k plan b).2.bench.settle.store (prepare c k plan b).2 := by
  have underway := prepare_underway c k plan b
  rw [fresh] at underway
  exact underway

/-! ### Undoing a run -/

theorem unwind_effect (k : Conditions Memory) (p : Progress Memory)
    (ended : p.run.status = .failed ∨ p.run.status = .completed) :
    (unwind k p).run.id = p.run.id ∧ (unwind k p).run.plan = p.run.plan ∧
      (unwind k p).run.status = .rolledBack ∧
      (unwind k p).bench.settle.store =
        p.bench.settle.store.restoreAll (p.bench.undo.stack p.run.id) ∧
      (unwind k p).bench.undo = p.bench.undo.discard p.run.id := by
  have allowed : p.run.status.canBecome .rolledBack = true := by
    rcases ended with failed | completed
    · rw [failed]
      rfl
    · rw [completed]
      rfl
  obtain ⟨same, -, store, undo⟩ := unwind_effects k p
  rw [Memory.store_unwindRecords] at store
  exact ⟨same.id, same.plan, status_unwind k allowed, store, undo⟩

/-! ### Aborted runs -/

/-- The run got as far as its steps, and one of them stopped it. -/
def Aborts (c : Collaborators Memory) (k : Conditions Memory) (plan : Plan) (b : Bench Memory) :
    Prop :=
  (prepare c k plan b).1 = true ∧ EndsEarly c k (prepare c k plan b).2 plan.steps

/-- An aborted run that is undone is undone together with all that is on its stack. -/
theorem aborted_run_unwinds (stay : c.StayOnPath) {b : Bench Memory}
    (real : plan.request.dryRun = false) (undoes : plan.request.undoesOnAbort = true)
    (aborts : Aborts c k plan b) :
    (run c k plan b).1.status = .rolledBack ∧ (run c k plan b).2.undo.stack plan.id = [] ∧
      ((prepare c k plan b).2.bench.settle.store.restoreAll (b.undo.stack plan.id)).Agrees
        (run c k plan b).2.settle.store := by
  obtain ⟨ready, early⟩ := aborts
  have underway := attemptAll_underway (k := k) stay real (prepare_underway c k plan b) plan.steps
  have aborted := aborted_of_endsEarly early
  have begun : stepsBegun c k plan b = plan.steps := if_pos ready
  rw [run_eq, ready, between_all, begun]
  dsimp only
  generalize attemptAll c k plan.steps (prepare c k plan b).2 = p at underway aborted
  have concluded : conclude c k p = unwind k (p.become .failed) := by
    simp [conclude, aborted, underway.ownPlan, real, undoes, Progress.become, Run.become]
  have runs : p.Runs plan := ⟨underway.ownId, underway.ownPlan, underway.running⟩
  have failed : (p.become .failed).run.status = .failed := runs.ends rfl
  obtain ⟨id, -, status, store, undo⟩ := unwind_effect k (p.become .failed) (Or.inl failed)
  rw [if_pos rfl, concluded]
  generalize unwind k (p.become .failed) = q at id status store undo
  obtain ⟨store', undo'⟩ := measure_effect k q.run.plan.risk.backups q.bench
  obtain ⟨finished, store'', undo''⟩ := finish_effect k (measureAfter k q)
  have ends : (measureAfter k q).run.status = .rolledBack := status
  have id : q.run.id = plan.id := id.trans underway.ownId
  refine ⟨finished.trans ends, ?_, ?_⟩
  · rw [undo'', if_pos (Or.inl ends)]
    exact id ▸ UndoStacks.stack_discard _ _
  · rw [store'', show (measureAfter k q).bench.settle.store = _ from store', store,
      show (p.become .failed).run.id = _ from underway.ownId]
    exact underway.undoes

theorem run_of_aborts (stay : c.StayOnPath) {b : Bench Memory}
    (real : plan.request.dryRun = false) (undoes : plan.request.undoesOnAbort = true)
    (fresh : b.undo.stack plan.id = []) (aborts : Aborts c k plan b) :
    (run c k plan b).1.status = .rolledBack ∧ (run c k plan b).2.undo.stack plan.id = [] ∧
      (prepare c k plan b).2.bench.settle.store.Agrees (run c k plan b).2.settle.store := by
  have unwound := aborted_run_unwinds stay real undoes aborts
  rw [fresh] at unwound
  exact unwound

/-- An aborted run that is undone leaves no record, and every path that got no backup copy
holds what it held before. -/
theorem aborted_run_restores_files (policy : ExecutionPolicy) (tests : Call Memory TestReport)
    (v : Validator) (k : Conditions Memory) (plan : Plan) (b : Bench Memory)
    (real : plan.request.dryRun = false) (keeps : plan.request.rollback = true)
    (conservative : plan.request.safety = .conservative) (fresh : b.undo.stack plan.id = [])
    (aborts : Aborts { Collaborators.standard policy tests with validator := v } k plan b) :
    let ended := run { Collaborators.standard policy tests with validator := v } k plan b
    ended.1.status = .rolledBack ∧ ended.2.undo.stack plan.id = [] ∧
      ∀ q, ¬Backup.IsDestination policy.backupDir plan q →
        ended.2.settle.store.get? q = b.settle.store.get? q := by
  have undoes : plan.request.undoesOnAbort = true := by
    simp [Request.undoesOnAbort, keeps, conservative]
  have stay := Collaborators.standard_stayOnPath policy tests v
  obtain ⟨status, stack, files⟩ := run_of_aborts stay real undoes fresh aborts
  refine ⟨status, stack, fun q elsewhere => (files.contents q).trans ?_⟩
  obtain ⟨-, -, -, -, same | copied⟩ :=
    prepare_effect { Collaborators.standard policy tests with validator := v } k plan b
  · rw [same]
  · rw [copied]
    exact (Backup.create_effect policy.backupDir plan b.settle.store).2 q elsewhere

/-- Two steps come through before one of high risk meets other content than it was planned for. -/
def staleLastStep : Plan where
  id := "m"
  request := { source := "1", target := "2" }
  risk := { backups := [⟨"a.js"⟩, ⟨"b.js"⟩] }
  steps := [
    { id := ⟨"1"⟩, kind := .codeTransformation, path := ⟨"a.js"⟩, original := some "var a;",
      transformed := some "let a;" },
    { id := ⟨"2"⟩, kind := .fileOperation, path := ⟨"./src//b.js"⟩ },
    { id := ⟨"3"⟩, kind := .testUpdate, path := ⟨"tests"⟩ },
    { id := ⟨"4"⟩, kind := .codeTransformation, path := ⟨"a.js"⟩, original := some "var a;",
      transformed := some "const a;", risk := .high }]

def staleBench : Bench Memory :=
  { store := { files := [(⟨"a.js"⟩, "var a;"), (⟨"./src/b.js"⟩, "b")], readOnly := [⟨"c.js"⟩] } }

theorem staleLastStep_restored :
    let ended := run (Collaborators.standard {}) { deadline := 10 } staleLastStep staleBench
    ended.1.status = .rolledBack ∧ ended.2.undo.stack "m" = [] ∧
      ended.2.settle.store.get? ⟨"a.js"⟩ = some "var a;" ∧
      ended.2.settle.store.get? ⟨"./src/b.js"⟩ = some "b" := by
  have aborts : Aborts (Collaborators.standard {}) { deadline := 10 } staleLastStep staleBench :=
    ⟨by decide, staleLastStep.steps.take 3, _, [], rfl, by decide, Or.inr ⟨rfl, _, rfl⟩⟩
  obtain ⟨status, stack, files⟩ := aborted_run_restores_files {} (Collaborators.fixedTests {})
    Validator.builtin { deadline := 10 } staleLastStep staleBench rfl rfl rfl rfl aborts
  refine ⟨status, stack, (files ⟨"a.js"⟩ ?_).trans (by decide),
    (files ⟨"./src/b.js"⟩ ?_).trans (by decide)⟩
  · unfold Backup.IsDestination
    decide
  · unfold Backup.IsDestination
    decide

end Execution

end Uplift
