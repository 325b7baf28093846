import Uplift.Proofs.Run.Completion

/-!
# How a run ends

Behind its last step a run is undone, fails or completes, and `run_ending` says what each of
these does to the store and to the stacks. None of them touches the lists of the steps done
and failed.
-/

namespace Uplift

variable {σ : Type}

structure Run.SameSteps (r r' : Run) : Prop where
  id : r'.id = r.id
  plan : r'.plan = r.plan
  completed : r'.execution.completed = r.execution.completed
  failed : r'.execution.failed = r.execution.failed

namespace Run.SameSteps

theorem trans {r₁ r₂ r₃ : Run} (h : SameSteps r₁ r₂) (h' : SameSteps r₂ r₃) : SameSteps r₁ r₃ :=
  ⟨h'.id.trans h.id, h'.plan.trans h.plan, h'.completed.trans h.completed,
    h'.failed.trans h.failed⟩

end Run.SameSteps

theorem Run.become_sameSteps (r : Run) (next : Status) : r.SameSteps (r.become next).2 := by
  unfold become ExecutionRecord.transition
  split <;> exact ⟨rfl, rfl, rfl, rfl⟩

namespace Execution

variable {c : Collaborators σ} {k : Conditions σ} {p : Progress σ} {plan : Plan} {b : Bench σ}

/-! ### Undoing, testing and summing up -/

theorem unwind_effects [FileStore σ] (k : Conditions σ) (p : Progress σ) :
    p.run.SameSteps (unwind k p).run ∧ (unwind k p).run.outcome.canRollBack = false ∧
      (unwind k p).bench.settle.store =
        (unwindRecords p.bench.settle.store (p.bench.undo.stack p.run.id)).2 ∧
      (unwind k p).bench.undo = p.bench.undo.discard p.run.id := by
  unfold unwind UndoStacks.unwind
  dsimp only
  rw [Bench.undo_settle]
  rcases unwindRecords p.bench.settle.store (p.bench.undo.stack p.run.id) with ⟨report, store⟩
  dsimp only
  rw [foldl_log]
  have kept := Run.become_sameSteps p.run .rolledBack
  exact ⟨⟨kept.id, kept.plan, kept.completed, kept.failed⟩, rfl, rfl, rfl⟩

theorem status_unwind [FileStore σ] (k : Conditions σ)
    (allowed : p.run.status.canBecome .rolledBack = true) :
    (unwind k p).run.status = .rolledBack := by
  unfold unwind
  dsimp only
  rw [foldl_log]
  exact Run.status_become allowed

theorem runTests_ending (c : Collaborators σ) (k : Conditions σ) (p : Progress σ) :
    p.run.SameSteps (runTests c k p).run ∧ (runTests c k p).run.status = p.run.status ∧
      (runTests c k p).bench.settle.store = (c.tests p.bench.settle.store).after ∧
      (runTests c k p).bench.undo = p.bench.undo := by
  have store := Bench.store_settle_call k c.tests p.bench
  have undo := Bench.undo_call k c.tests p.bench
  unfold runTests
  rcases called : p.bench.call k c.tests with ⟨result, bench⟩
  rw [called] at store undo
  cases result with
  | ok report =>
    dsimp only
    split <;> exact ⟨⟨rfl, rfl, rfl, rfl⟩, rfl, store, undo⟩
  | error e => exact ⟨⟨rfl, rfl, rfl, rfl⟩, rfl, store, undo⟩

theorem finish_sameSteps (k : Conditions σ) (p : Progress σ) :
    p.run.SameSteps (finish k p).run ∧
      (finish k p).run.outcome.canRollBack = (finish k p).bench.undo.hasRecords p.run.id :=
  ⟨⟨rfl, rfl, rfl, rfl⟩, rfl⟩

/-! ### Ends -/

variable [FileStore σ]

/-- The ends of a run of `plan` that stands at `p` behind its steps, if they `began` at all:
what becomes of its status, its store and its stacks. -/
inductive Ending (c : Collaborators σ) (plan : Plan) (began : Bool) (p : Progress σ)
    (status : Status) (store : σ) (undo : UndoStacks) : Prop
  | undone (aborted : p.aborted = true) (ends : status = .rolledBack)
      (unwound : store = (unwindRecords p.bench.settle.store (p.bench.undo.stack plan.id)).2)
      (emptied : undo = p.bench.undo.discard plan.id)
  | failed (ends : status = .failed) (left : store = p.bench.settle.store)
      (kept : undo = p.bench.undo)
  | completed (begins : began = true) (running : p.aborted = false) (ends : status = .completed)
      (left : store = p.bench.settle.store ∨ store = (c.tests p.bench.settle.store).after)
      (kept : undo = p.bench.undo)

theorem conclude_ending (c : Collaborators σ) (k : Conditions σ) (runs : p.Runs plan) :
    p.run.SameSteps (conclude c k p).run ∧
      Ending c plan true p (conclude c k p).run.status (conclude c k p).bench.settle.store
        (conclude c k p).bench.undo := by
  unfold conclude
  dsimp only
  split
  · rename_i aborted
    have stopped := Run.become_sameSteps p.run .failed
    have failed : (p.become .failed).run.status = .failed := runs.ends rfl
    split
    · have allowed : (p.become .failed).run.status.canBecome .rolledBack = true := by
        rw [failed]
        rfl
      obtain ⟨same, -, store, undo⟩ := unwind_effects k (p.become .failed)
      have own : (p.become .failed).run.id = plan.id := stopped.id.trans runs.id
      rw [own] at store undo
      exact ⟨stopped.trans same, .undone aborted (status_unwind k allowed) store undo⟩
    · exact ⟨stopped, .failed failed rfl rfl⟩
  · rename_i running
    have running : p.aborted = false := Bool.eq_false_iff.mpr running
    split
    · obtain ⟨same, status, store, undo⟩ := runTests_ending c k p
      have ended := Run.become_sameSteps (runTests c k p).run .completed
      have completed : ((runTests c k p).run.become .completed).2.status = .completed :=
        Run.status_become (by rw [status, runs.status]; rfl)
      exact ⟨same.trans ⟨ended.id, ended.plan, ended.completed, ended.failed⟩,
        .completed rfl running completed (.inr store) undo⟩
    · have ended := Run.become_sameSteps p.run .completed
      have completed : (p.become .completed).run.status = .completed := runs.ends rfl
      exact ⟨⟨ended.id, ended.plan, ended.completed, ended.failed⟩,
        .completed rfl running completed (.inl rfl) rfl⟩

theorem between_all (c : Collaborators σ) (k : Conditions σ) (plan : Plan) (b : Bench σ) :
    between c k plan b plan.steps.length =
      attemptAll c k (stepsBegun c k plan b) (prepare c k plan b).2 := by
  have all : (stepsBegun c k plan b).take plan.steps.length = stepsBegun c k plan b := by
    unfold stepsBegun
    split
    · exact List.take_length
    · exact List.take_nil
  rw [between, all]

/-- A run goes on from behind its last step: it is concluded and measured, or it fails for want
of its backup, and then it is summed up. -/
theorem runToEnd_eq (c : Collaborators σ) (k : Conditions σ) (plan : Plan) (b : Bench σ) :
    runToEnd c k plan b =
      let p := between c k plan b plan.steps.length
      finish k (if (prepare c k plan b).1 then measureAfter k (conclude c k p)
        else p.become .failed) := by
  rw [between_all]
  unfold stepsBegun runToEnd
  rcases prepare c k plan b with ⟨isReady, p⟩
  cases isReady <;> rfl

theorem run_eq (c : Collaborators σ) (k : Conditions σ) (plan : Plan) (b : Bench σ) :
    run c k plan b =
      let p := between c k plan b plan.steps.length
      let ended := finish k (if (prepare c k plan b).1 then measureAfter k (conclude c k p)
        else p.become .failed)
      (ended.run, ended.bench) := by
  unfold run
  rw [runToEnd_eq]

theorem finish_ending {began : Bool} {q : Progress σ} (k : Conditions σ) (runs : p.Runs plan)
    (same : p.run.SameSteps q.run)
    (ending : Ending c plan began p q.run.status q.bench.settle.store q.bench.undo) :
    let ended := finish k q
    p.run.SameSteps ended.run ∧
      ended.run.outcome.canRollBack = ended.bench.undo.hasRecords plan.id ∧
      ∃ undo, Ending c plan began p ended.run.status ended.bench.settle.store undo ∧
        ended.bench.undo =
          if ended.run.status = .rolledBack ∨ plan.request.rollback = false then
            undo.discard plan.id
          else undo := by
  obtain ⟨status, store, undo⟩ := finish_effect k q
  obtain ⟨same', records⟩ := finish_sameSteps k q
  have ownId : q.run.id = plan.id := same.id.trans runs.id
  have ownPlan : q.run.plan = plan := same.plan.trans runs.plan
  rw [ownId] at records undo
  rw [ownPlan] at undo
  refine ⟨same.trans same', records, q.bench.undo, ?_, ?_⟩
  · rw [status, store]
    exact ending
  · rw [undo, status]

/-- A run ends in one of three ways behind its last step, and forgets its records if it was
undone or is not to keep them. -/
theorem run_ending (c : Collaborators σ) (k : Conditions σ) (plan : Plan) (b : Bench σ) :
    let p := between c k plan b plan.steps.length
    let ended := run c k plan b
    p.run.SameSteps ended.1 ∧ ended.1.outcome.canRollBack = ended.2.undo.hasRecords plan.id ∧
      ∃ undo, Ending c plan (prepare c k plan b).1 p ended.1.status ended.2.settle.store undo ∧
        ended.2.undo =
          if ended.1.status = .rolledBack ∨ plan.request.rollback = false then undo.discard plan.id
          else undo := by
  have runs := between_runs c k plan b plan.steps.length
  rw [run_eq]
  dsimp only
  generalize between c k plan b plan.steps.length = p at runs ⊢
  cases (prepare c k plan b).1 with
  | false =>
    -- without its backup the run fails before the first step
    have failed : (p.become .failed).run.status = .failed := runs.ends rfl
    exact finish_ending k runs (Run.become_sameSteps p.run .failed) (.failed failed rfl rfl)
  | true =>
    obtain ⟨same, ending⟩ := conclude_ending c k runs
    rw [if_pos rfl]
    generalize conclude c k p = q at same ending ⊢
    obtain ⟨store, undo⟩ := measure_effect k q.run.plan.risk.backups q.bench
    refine finish_ending k runs (q := measureAfter k q)
      ⟨same.id, same.plan, same.completed, same.failed⟩ ?_
    -- measuring reads the files, it leaves the store and the stacks as they are
    rw [show (measureAfter k q).bench.settle.store = _ from store,
      show (measureAfter k q).bench.undo = _ from undo]
    exact ending

/-- A run that completes has gone through all steps of its plan, and tests that change no file
leave the files as the last step left them. -/
theorem steps_of_completed {c : Collaborators σ} (calm : ∀ store, (c.tests store).after = store)
    (k : Conditions σ) (plan : Plan) (b : Bench σ) :
    let ended := run c k plan b
    let p := attemptAll c k plan.steps (prepare c k plan b).2
    ended.1.status = .completed →
      p.aborted = false ∧ ended.1.execution.failed = p.run.execution.failed ∧
        ended.2.settle.store = p.bench.settle.store := by
  intro ended p completed
  obtain ⟨same, -, undo, ending, -⟩ := run_ending c k plan b
  rw [between_all] at same ending
  cases ending with
  | undone _ ends => cases completed.symm.trans ends
  | failed ends => cases completed.symm.trans ends
  | completed begins running _ left =>
    have begun : stepsBegun c k plan b = plan.steps := if_pos begins
    rw [begun] at same running left
    refine ⟨running, same.failed, ?_⟩
    rcases left with untested | tested
    · exact untested
    · exact tested.trans (calm _)

end Execution

end Uplift
