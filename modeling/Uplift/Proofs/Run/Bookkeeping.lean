import Uplift.Proofs.Run.Moves
import Uplift.Proofs.Run.Trials

/-!
# The books of a run

The result of a run is read off three things: what came of the steps that were tried, the
step before which the run was cancelled, and the error of its backup. `run_keeps_books` says
how: which steps count as completed and failed, what is counted as a change, how the run
ends, which errors it lists, and that its status was never asked to make a move that it
refused.
-/

namespace Uplift

variable {σ : Type}

theorem Risk.aborts_eq_false {r : Risk} : r.aborts = false ↔ r = .low ∨ r = .medium := by
  cases r <;> decide

theorem Risk.aborts_eq_true {r : Risk} : r.aborts = true ↔ r = .high ∨ r = .critical := by
  cases r <;> decide

theorem Trial.aborts_eq_true {t : Trial} :
    t.aborts = true ↔ t.passed = false ∧ (t.step.risk = .high ∨ t.step.risk = .critical) := by
  unfold aborts
  rw [← Risk.aborts_eq_true]
  cases t.passed <;> simp

theorem Trial.aborts_eq_false {t : Trial} :
    t.aborts = false ↔ (t.passed = false → t.step.risk = .low ∨ t.step.risk = .medium) := by
  unfold aborts
  rw [← Risk.aborts_eq_false]
  cases t.passed <;> simp

theorem Run.errors_become (r : Run) (next : Status) :
    (r.become next).2.execution.errors = r.execution.errors := by
  unfold become ExecutionRecord.transition
  split <;> rfl

theorem Run.warnings_become (r : Run) (next : Status) :
    (r.become next).2.execution.warnings = r.execution.warnings := by
  unfold become ExecutionRecord.transition
  split <;> rfl

namespace Execution

/-! ### Tests -/

def tested (c : Collaborators σ) (k : Conditions σ) (p : Progress σ) : Progress σ :=
  if p.run.plan.request.includeTests && !p.run.plan.request.dryRun then runTests c k p else p

theorem tested_books (c : Collaborators σ) (k : Conditions σ) (p : Progress σ) :
    (tested c k p).run.status = p.run.status ∧
      (tested c k p).run.execution.errors = p.run.execution.errors ∧
      (tested c k p).run.outcome.changes = p.run.outcome.changes := by
  unfold tested
  split
  · unfold runTests
    rcases p.bench.call k c.tests with ⟨result, bench⟩
    cases result with
    | ok report =>
      dsimp only
      split <;> exact ⟨rfl, rfl, rfl⟩
    | error e => exact ⟨rfl, rfl, rfl⟩
  · exact ⟨rfl, rfl, rfl⟩

variable [FileStore σ] {c : Collaborators σ} {k : Conditions σ} {p : Progress σ} {plan : Plan}
  {b : Bench σ}

/-! ### Before the first step -/

/-- Why the backup that comes before the first step failed, if it was to be made and did. -/
def backupError? (c : Collaborators σ) (k : Conditions σ) (plan : Plan) (b : Bench σ) :
    Option CollaboratorError :=
  if plan.request.backup && !plan.request.dryRun then
    match ((start k plan b).bench.call k (c.backup plan)).1 with
    | .ok _ => none
    | .error e => some e
  else none

theorem prepare_books (c : Collaborators σ) (k : Conditions σ) (plan : Plan) (b : Bench σ) :
    (prepare c k plan b).1 = (backupError? c k plan b).isNone ∧
      (prepare c k plan b).2.run.execution.warnings = [] ∧
      (prepare c k plan b).2.run.execution.errors =
        ((backupError? c k plan b).map fun e => s!"Backup failed: {e.message}").toList ∧
      ∃ before, (prepare c k plan b).2.run.outcome = { before := before } := by
  unfold prepare backupError?
  dsimp only
  split
  · unfold makeBackup
    rw [show (start k plan b).run.plan = plan from rfl]
    rcases (start k plan b).bench.call k (c.backup plan) with ⟨result, bench⟩
    cases result <;> exact ⟨rfl, rfl, rfl, _, rfl⟩
  · exact ⟨rfl, rfl, rfl, _, rfl⟩

/-! ### Behind the last step -/

theorem unwind_books (k : Conditions σ) (p : Progress σ) :
    (unwind k p).run.execution = (p.run.become .rolledBack).2.execution ∧
      (unwind k p).run.outcome = { p.run.outcome with canRollBack := false } := by
  unfold unwind UndoStacks.unwind
  dsimp only
  rw [foldl_log]
  exact ⟨rfl, rfl⟩

theorem conclude_books (c : Collaborators σ) (k : Conditions σ) (runs : p.Runs plan)
    (undecided : p.run.outcome.success = false) :
    (conclude c k p).run.execution.errors = p.run.execution.errors ∧
      (conclude c k p).run.outcome.changes = p.run.outcome.changes ∧
      (conclude c k p).run.outcome.success = !p.aborted ∧
      (conclude c k p).run.status =
        if p.aborted then
          if plan.request.undoesOnAbort && !plan.request.dryRun then .rolledBack else .failed
        else .completed := by
  unfold conclude
  dsimp only
  rw [runs.plan]
  cases aborted : p.aborted with
  | true =>
    rw [if_pos rfl, if_pos rfl]
    have errors := p.run.errors_become .failed
    have failed : (p.become .failed).run.status = .failed := runs.ends rfl
    split
    · obtain ⟨execution, outcome⟩ := unwind_books k (p.become .failed)
      refine ⟨?_, ?_, ?_, status_unwind k (by rw [failed]; rfl)⟩
      · rw [execution, Run.errors_become]
        exact errors
      · rw [outcome]
        rfl
      · rw [outcome]
        exact undecided
    · exact ⟨errors, rfl, undecided, failed⟩
  | false =>
    rw [if_neg Bool.false_ne_true, if_neg Bool.false_ne_true]
    obtain ⟨status, errors, changes⟩ := tested_books c k p
    unfold tested at status errors changes
    rw [runs.plan] at status errors changes
    refine ⟨?_, changes, rfl, ?_⟩
    · exact (Run.errors_become _ .completed).trans errors
    · exact Run.status_become (by rw [status, runs.status]; rfl)

/-! ### A whole run -/

def tried (c : Collaborators σ) (k : Conditions σ) (plan : Plan) (b : Bench σ) : List Trial :=
  trials c k (prepare c k plan b).2 (stepsBegun c k plan b)

def cancelledBefore? (c : Collaborators σ) (k : Conditions σ) (plan : Plan) (b : Bench σ) :
    Option Step :=
  interrupted? c k (prepare c k plan b).2 (stepsBegun c k plan b)

theorem run_accounts (c : Collaborators σ) (k : Conditions σ) (plan : Plan) (b : Bench σ) :
    Progress.Accounts (tried c k plan b) (cancelledBefore? c k plan b) (prepare c k plan b).2
      (between c k plan b plan.steps.length) := by
  rw [between_all]
  exact attemptAll_accounts c k (prepare c k plan b).2 (stepsBegun c k plan b)

theorem run_course (c : Collaborators σ) (k : Conditions σ) (plan : Plan) (b : Bench σ) :
    Course (stepsBegun c k plan b) (tried c k plan b) (cancelledBefore? c k plan b) :=
  trials_course (prepare_steps c k plan b).2.2 _

theorem run_books (c : Collaborators σ) (k : Conditions σ) (plan : Plan) (b : Bench σ) :
    let p := between c k plan b plan.steps.length
    let ended := (run c k plan b).1
    ended.execution.errors = p.run.execution.errors ∧
      ended.outcome.changes = p.run.outcome.changes ∧
      ended.outcome.success = ((prepare c k plan b).1 && !p.aborted) ∧
      ended.status =
        if (prepare c k plan b).1 then
          if p.aborted then
            if plan.request.undoesOnAbort && !plan.request.dryRun then .rolledBack else .failed
          else .completed
        else .failed := by
  have runs := between_runs c k plan b plan.steps.length
  have undecided : (between c k plan b plan.steps.length).run.outcome.success = false := by
    obtain ⟨-, -, -, before, outcome⟩ := prepare_books c k plan b
    rw [(run_accounts c k plan b).outcome, outcome]
  rw [run_eq]
  dsimp only
  generalize between c k plan b plan.steps.length = p at runs undecided ⊢
  cases (prepare c k plan b).1 with
  | false => exact ⟨p.run.errors_become .failed, rfl, undecided, runs.ends rfl⟩
  | true => exact conclude_books c k runs undecided

theorem run_lists (c : Collaborators σ) (k : Conditions σ) (plan : Plan) (b : Bench σ) :
    (run c k plan b).1.execution.completed =
        ((tried c k plan b).filter (·.passed)).map (·.step.id) ∧
      (run c k plan b).1.execution.failed =
        ((tried c k plan b).filter (!·.passed)).map (·.step.id) := by
  obtain ⟨none, noneFailed, -⟩ := prepare_steps c k plan b
  obtain ⟨same, -⟩ := run_ending c k plan b
  have accounts := run_accounts c k plan b
  rw [same.completed, same.failed, accounts.completed, accounts.failed, none, noneFailed,
    List.nil_append, List.nil_append]
  exact ⟨rfl, rfl⟩

theorem conclude_warnings (c : Collaborators σ) (k : Conditions σ)
    (untested : p.run.plan.request.includeTests = false) :
    (conclude c k p).run.execution.warnings = p.run.execution.warnings := by
  unfold conclude
  dsimp only
  rw [untested, Bool.false_and, if_neg Bool.false_ne_true]
  split
  · split
    · rw [(unwind_books k (p.become .failed)).1, Run.warnings_become]
      exact p.run.warnings_become .failed
    · exact p.run.warnings_become .failed
  · exact p.run.warnings_become .completed

theorem run_warnings (c : Collaborators σ) (k : Conditions σ) (b : Bench σ)
    (untested : plan.request.includeTests = false) :
    (run c k plan b).1.execution.warnings = (tried c k plan b).flatMap Trial.warnings := by
  obtain ⟨-, none, -⟩ := prepare_books c k plan b
  have runs := between_runs c k plan b plan.steps.length
  have warnings := (run_accounts c k plan b).warnings
  rw [none, List.nil_append] at warnings
  rw [← warnings, run_eq]
  dsimp only
  generalize between c k plan b plan.steps.length = p at runs ⊢
  cases (prepare c k plan b).1 with
  | false => exact p.run.warnings_become .failed
  | true => exact conclude_warnings c k (runs.plan.symm ▸ untested)

theorem run_diff (c : Collaborators σ) (k : Conditions σ) (plan : Plan) (b : Bench σ) :
    (run c k plan b).1.artifacts.diff = diffOf plan (run c k plan b).1.execution.completed := by
  obtain ⟨same, -⟩ := run_ending c k plan b
  have own : (run c k plan b).1.plan = plan :=
    same.plan.trans (between_runs c k plan b plan.steps.length).plan
  have shown : (run c k plan b).1.artifacts.diff =
      diffOf (run c k plan b).1.plan (run c k plan b).1.execution.completed := by
    rw [run_eq]
    rfl
  rw [shown, own]

/-! ### The result -/

/-- What the result of a run of the plan says about the steps that were tried, the step before
which the run was cancelled, if it was, and the error of its backup, if that was lost. -/
structure Books (plan : Plan) (tried : List Trial) (stop : Option Step)
    (lost : Option CollaboratorError) (r : Run) : Prop where
  inOrder : tried.map (·.step) <+: plan.steps
  completed : r.execution.completed = (tried.filter (·.passed)).map (·.step.id)
  failed : r.execution.failed = (tried.filter (!·.passed)).map (·.step.id)
  /-- Each trial is entered once, also where steps share an id. -/
  once : (r.execution.completed ++ r.execution.failed).Perm (tried.map (·.step.id))
  changes : r.outcome.changes = if plan.request.dryRun then 0 else r.execution.completed.length
  tolerated : ∀ t ∈ tried.dropLast, t.passed = false → t.step.risk = .low ∨ t.step.risk = .medium
  success : r.outcome.success = true ↔ r.status = .completed
  completes : r.status = .completed ↔
    lost = none ∧ tried.map (·.step) = plan.steps ∧
      (∀ t ∈ tried, t.passed = false → t.step.risk = .low ∨ t.step.risk = .medium) ∧ stop = none
  rollsBack : r.status = .rolledBack ↔
    ((∃ t ∈ tried, t.passed = false ∧ (t.step.risk = .high ∨ t.step.risk = .critical)) ∨
      stop.isSome = true) ∧ plan.request.dryRun = false ∧ plan.request.undoesOnAbort = true
  fails : r.status = .failed ↔ r.status ≠ .completed ∧ r.status ≠ .rolledBack
  errors : r.execution.errors =
    (lost.map fun e => s!"Backup failed: {e.message}").toList ++
      (tried.filterMap Trial.error? ++ (stop.map Step.cancellation).toList)
  errorCount : r.execution.errors.length =
    r.execution.failed.length + stop.toList.length + lost.toList.length

theorem length_filterMap_error? (tried : List Trial) :
    (tried.filterMap Trial.error?).length = (tried.filter (!·.passed)).length := by
  induction tried with
  | nil => rfl
  | cons t rest ih =>
    obtain ⟨s, result⟩ := t
    cases result with
    | ok diagnostics => exact ih
    | error e => exact congrArg (· + 1) ih

theorem prepare_of_ready (ready : backupError? c k plan b = none) :
    (prepare c k plan b).1 = true := by
  rw [(prepare_books c k plan b).1, ready]
  rfl

theorem stepsBegun_of_ready (ready : backupError? c k plan b = none) :
    stepsBegun c k plan b = plan.steps := if_pos (prepare_of_ready ready)

theorem tried_of_lost {e : CollaboratorError} (lost : backupError? c k plan b = some e) :
    tried c k plan b = [] ∧ cancelledBefore? c k plan b = none := by
  have none : stepsBegun c k plan b = [] := by
    unfold stepsBegun
    rw [(prepare_books c k plan b).1, lost]
    rfl
  unfold tried cancelledBefore?
  rw [none]
  exact ⟨rfl, rfl⟩

theorem tried_isPrefix (c : Collaborators σ) (k : Conditions σ) (plan : Plan) (b : Bench σ) :
    (tried c k plan b).map (·.step) ++ (cancelledBefore? c k plan b).toList <+: plan.steps := by
  have course := run_course c k plan b
  cases lost : backupError? c k plan b with
  | none => exact stepsBegun_of_ready lost ▸ course.isPrefix
  | some e =>
    obtain ⟨nothing, uncancelled⟩ := tried_of_lost lost
    rw [nothing, uncancelled]
    exact List.nil_prefix

def isStopped (c : Collaborators σ) (k : Conditions σ) (plan : Plan) (b : Bench σ) : Bool :=
  (tried c k plan b).any (·.aborts) || (cancelledBefore? c k plan b).isSome

theorem isStopped_eq_false : isStopped c k plan b = false ↔
    (∀ t ∈ tried c k plan b, t.aborts = false) ∧ cancelledBefore? c k plan b = none := by
  unfold isStopped
  rw [Bool.or_eq_false_iff, List.any_eq_false, Option.isSome_eq_false_iff,
    Option.isNone_iff_eq_none]
  simp only [Bool.not_eq_true]

theorem isStopped_eq_true : isStopped c k plan b = true ↔
    (∃ t ∈ tried c k plan b, t.aborts = true) ∨ (cancelledBefore? c k plan b).isSome = true := by
  unfold isStopped
  rw [Bool.or_eq_true, List.any_eq_true]

/-- A run completes unless it lost its backup or was stopped; one that was stopped is undone if
the request asks for that. -/
theorem run_status (c : Collaborators σ) (k : Conditions σ) (plan : Plan) (b : Bench σ) :
    let ended := (run c k plan b).1
    (ended.status = .completed ↔
        backupError? c k plan b = none ∧ isStopped c k plan b = false) ∧
      (ended.status = .rolledBack ↔ isStopped c k plan b = true ∧
        plan.request.undoesOnAbort = true ∧ plan.request.dryRun = false) ∧
      (ended.status = .failed ↔ ended.status ≠ .completed ∧ ended.status ≠ .rolledBack) ∧
      (ended.outcome.success = true ↔ ended.status = .completed) := by
  obtain ⟨ready, -⟩ := prepare_books c k plan b
  obtain ⟨-, -, success, status⟩ := run_books c k plan b
  have aborted : (between c k plan b plan.steps.length).aborted = isStopped c k plan b := by
    rw [(run_accounts c k plan b).aborted, (prepare_steps c k plan b).2.2, Bool.false_or]
    rfl
  rw [aborted, ready] at success status
  dsimp only
  rw [success, status]
  cases lost : backupError? c k plan b with
  | some e =>
    obtain ⟨nothing, uncancelled⟩ := tried_of_lost lost
    have calm : isStopped c k plan b = false := by
      rw [isStopped_eq_false, nothing]
      exact ⟨by simp, uncancelled⟩
    simp [calm]
  | none =>
    cases isStopped c k plan b <;> cases plan.request.undoesOnAbort <;>
      cases plan.request.dryRun <;> simp

/-- The steps that were tried are a first part of the plan. Each is entered once, as completed
or as failed, and what has been entered decides how the run ends and which errors it lists.
No move that the run asks its status to make is refused, and its moves lead to that end. -/
theorem run_keeps_books (c : Collaborators σ) (k : Conditions σ) (plan : Plan) (b : Bench σ) :
    Books plan (tried c k plan b) (cancelledBefore? c k plan b) (backupError? c k plan b)
        (run c k plan b).1 ∧
      (∀ move ∈ (runToEnd c k plan b).moves, move.granted = true) ∧
      Granted .pending (runToEnd c k plan b).moves (run c k plan b).1.status := by
  have led : Granted .pending (runToEnd c k plan b).moves (run c k plan b).1.status :=
    runToEnd_led c k plan b
  refine ⟨?_, led.answers, led⟩
  obtain ⟨-, -, lost, before, fresh⟩ := prepare_books c k plan b
  obtain ⟨completed, failed⟩ := run_lists c k plan b
  obtain ⟨errors, changes, -⟩ := run_books c k plan b
  obtain ⟨completes, rollsBack, fails, success⟩ := run_status c k plan b
  have accounts := run_accounts c k plan b
  have course := run_course c k plan b
  rw [accounts.errors, lost] at errors
  refine ⟨?_, completed, failed, ?_, ?_, ?_, success, ?_, ?_, fails, errors, ?_⟩
  · exact (List.prefix_append ..).trans (tried_isPrefix c k plan b)
  · rw [completed, failed, ← List.map_append]
    exact (List.filter_append_perm ..).map _
  · rw [changes, accounts.outcome, fresh, completed, List.length_map,
      (prepare_runs c k plan b).plan]
    exact Nat.zero_add _
  · exact fun t member => Trial.aborts_eq_false.mp (course.goesOn_dropLast t member)
  · rw [completes, isStopped_eq_false]
    simp only [Trial.aborts_eq_false]
    constructor
    · rintro ⟨kept, calm, uncancelled⟩
      rw [stepsBegun_of_ready kept] at course
      exact ⟨kept, course.complete (fun t member => Trial.aborts_eq_false.mpr (calm t member))
        uncancelled, calm, uncancelled⟩
    · rintro ⟨kept, -, calm, uncancelled⟩
      exact ⟨kept, calm, uncancelled⟩
  · rw [rollsBack, isStopped_eq_true]
    simp only [Trial.aborts_eq_true]
    exact and_congr_right fun _ => and_comm
  · rw [errors, failed, List.length_append, List.length_append, length_filterMap_error?,
      List.length_map]
    cases cancelledBefore? c k plan b <;> cases backupError? c k plan b <;>
      simp [Nat.add_comm]

end Execution

end Uplift
