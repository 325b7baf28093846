import Mathlib.Data.List.Forall2
import Uplift.Proofs.Run.Ending

/-!
# The records of a run

Only a step that comes through leaves a record on the stack, whatever the store and the
collaborators are: a step that fails either got no record or takes its own record back
(`run_leavesRecord`). Between two steps the stack of a run therefore holds one record for each
completed step that writes a file, above what was there before (`between_kept`).
-/

namespace Uplift

variable {σ : Type} {c : Collaborators σ} {k : Conditions σ} {id : String} {s : Step}
  {b : Bench σ}

/-! ### What a step does to the stacks -/

namespace Step

variable [FileStore σ]

def isRecorded (dryRun : Bool) (s : Step) : Bool := !dryRun && s.writesFile

/-- The stacks after a step of the migration `id` that met the bench `b`: where it comes
through and is recorded, the record of what its file held is new, otherwise nothing is. -/
def LeavesRecord (id : String) (dryRun : Bool) (s : Step) (b : Bench σ) :
    Except StepError (List Diagnostic) × Bench σ → Prop
  | (.error _, after) => ∀ other, after.undo.stack other = b.undo.stack other
  | (.ok _, after) =>
    if s.isRecorded dryRun then
      ∃ content, FileStore.read? b.settle.store s.path = .ok content ∧
        ∀ other, after.undo.stack other = (b.undo.push id ⟨s.id, s.path, content⟩).stack other
    else ∀ other, after.undo.stack other = b.undo.stack other

theorem LeavesRecord.of_idle {dryRun : Bool} {ran : Except StepError (List Diagnostic) × Bench σ}
    (unrecorded : s.isRecorded dryRun = false)
    (same : ∀ other, ran.2.undo.stack other = b.undo.stack other) :
    LeavesRecord id dryRun s b ran := by
  obtain ⟨result, after⟩ := ran
  cases result with
  | ok diagnostics =>
    unfold LeavesRecord
    rw [unrecorded]
    exact same
  | error e => exact same

theorem runRecorded_leavesRecord (c : Collaborators σ) (k : Conditions σ) (id : String)
    (writes : s.writesFile = true) {content : Option String}
    (read : FileStore.read? b.settle.store s.path = .ok content) :
    LeavesRecord id false s b (s.runRecorded c k id content b) := by
  unfold runRecorded
  dsimp only
  have undo := undo_apply c k s { b with undo := b.undo.push id ⟨s.id, s.path, content⟩ }
  rcases ran : s.apply c k { b with undo := b.undo.push id ⟨s.id, s.path, content⟩ }
    with ⟨result, after⟩
  rw [ran] at undo
  have undo : after.undo = b.undo.push id ⟨s.id, s.path, content⟩ := undo
  cases result with
  | ok diagnostics =>
    have left : ∀ other, after.undo.stack other = _ := fun other => congrArg (·.stack other) undo
    simpa [LeavesRecord, isRecorded, writes] using ⟨content, read, left⟩
  | error e =>
    -- the step failed behind its record, which is still the newest and is taken back
    have newest : after.undo.stack id = ⟨s.id, s.path, content⟩ :: b.undo.stack id := by
      rw [undo]
      exact UndoStacks.stack_push b.undo id _
    intro other
    rw [undo_takeBack newest rfl, undo]
    exact UndoStacks.stack_setStack_push b.undo id other _

theorem LeavesRecord.of_same {dryRun : Bool} {b₁ : Bench σ}
    {ran : Except StepError (List Diagnostic) × Bench σ}
    (store : b₁.settle.store = b.settle.store) (undo : b₁.undo = b.undo)
    (left : LeavesRecord id dryRun s b₁ ran) : LeavesRecord id dryRun s b ran := by
  obtain ⟨result, after⟩ := ran
  cases result with
  | error e => exact fun other => undo ▸ left other
  | ok diagnostics =>
    unfold LeavesRecord at left ⊢
    rw [store, undo] at left
    exact left

theorem run_leavesRecord (c : Collaborators σ) (k : Conditions σ) (id : String) (dryRun : Bool)
    (s : Step) (b : Bench σ) : LeavesRecord id dryRun s b (s.run c k id dryRun b) := by
  unfold run
  split
  · rename_i dry
    exact .of_idle (by simp [isRecorded, dry]) fun _ => rfl
  · rename_i real
    obtain rfl : dryRun = false := Bool.eq_false_iff.mpr real
    split
    · rename_i writes
      have undo := Bench.undo_call k (Call.readCurrent s.path) b
      have store : (b.call k (Call.readCurrent s.path)).2.settle.store = b.settle.store :=
        Bench.store_settle_call k (Call.readCurrent s.path) b
      rcases called : b.call k (Call.readCurrent s.path) with ⟨read, b₁⟩
      rw [called] at undo store
      refine LeavesRecord.of_same store undo ?_
      cases read with
      | error e => exact fun _ => rfl
      | ok content =>
        dsimp only
        split
        · -- a stale file is found out before anything is recorded
          exact fun _ => rfl
        · exact runRecorded_leavesRecord c k id writes (store ▸ Call.readCurrent_ok called)
    · rename_i idle
      exact .of_idle (by simp [isRecorded, idle]) fun other =>
        congrArg (·.stack other) (undo_apply c k s b)

end Step

/-! ### The stack of a run -/

structure Completion.RecordedAs [FileStore σ] (done : Completion σ) (r : UndoRecord) : Prop where
  step : r.step = done.step.id
  path : r.path = done.step.path
  content : FileStore.read? done.before.settle.store done.step.path = .ok r.content

namespace Execution

def recordable (plan : Plan) (done : List (Completion σ)) : List (Completion σ) :=
  done.filter (·.step.isRecorded plan.request.dryRun)

theorem recordable_append (plan : Plan) (done more : List (Completion σ)) :
    recordable plan (done ++ more) = recordable plan done ++ recordable plan more :=
  List.filter_append ..

variable [FileStore σ] {plan : Plan} {p : Progress σ} {start : UndoStacks}
  {done : List (Completion σ)}

/-- The stack of the plan has grown by one record for each completion that leaves one, the
newest first, and no other stack has changed. -/
structure Kept (plan : Plan) (start : UndoStacks) (done : List (Completion σ))
    (undo : UndoStacks) : Prop where
  own : ∃ records, List.Forall₂ Completion.RecordedAs (recordable plan done) records ∧
    undo.stack plan.id = records.reverse ++ start.stack plan.id
  others : ∀ other, other ≠ plan.id → undo.stack other = start.stack other

theorem Kept.refl (plan : Plan) (start : UndoStacks) :
    Kept plan start ([] : List (Completion σ)) start :=
  ⟨⟨[], .nil, rfl⟩, fun _ _ => rfl⟩

theorem Kept.of_same {undo undo' : UndoStacks} (kept : Kept plan start done undo)
    (same : ∀ other, undo'.stack other = undo.stack other) : Kept plan start done undo' := by
  obtain ⟨records, recorded, stack⟩ := kept.own
  exact ⟨⟨records, recorded, (same _).trans stack⟩,
    fun other different => (same _).trans (kept.others other different)⟩

theorem Kept.unrecorded {undo undo' : UndoStacks} {new : Completion σ}
    (kept : Kept plan start done undo) (silent : recordable plan [new] = [])
    (same : ∀ other, undo'.stack other = undo.stack other) :
    Kept plan start (done ++ [new]) undo' := by
  obtain ⟨⟨records, recorded, stack⟩, others⟩ := kept.of_same same
  refine ⟨⟨records, ?_, stack⟩, others⟩
  rw [recordable_append, silent, List.append_nil]
  exact recorded

theorem Kept.recorded {undo undo' : UndoStacks} {new : Completion σ} {r : UndoRecord}
    (kept : Kept plan start done undo) (one : recordable plan [new] = [new])
    (record : new.RecordedAs r)
    (pushed : ∀ other, undo'.stack other = (undo.push plan.id r).stack other) :
    Kept plan start (done ++ [new]) undo' := by
  obtain ⟨records, recorded, stack⟩ := kept.own
  refine ⟨⟨records ++ [r], ?_, ?_⟩, fun other different => ?_⟩
  · rw [recordable_append, one]
    exact List.rel_append recorded (.cons record .nil)
  · rw [pushed, UndoStacks.stack_push, stack, List.reverse_append]
    rfl
  · rw [pushed, UndoStacks.stack_push_other different]
    exact kept.others other different

theorem attempt_kept (runs : p.Runs plan) (kept : Kept plan start done p.bench.undo) (s : Step) :
    Kept plan start (done ++ (completion? c k p s).toList) (attempt c k p s).bench.undo := by
  have left := Step.run_leavesRecord c k plan.id plan.request.dryRun s p.bench
  have outcome := attempt_cases c k p s
  generalize completion? c k p s = new at outcome
  generalize attempt c k p s = p' at outcome
  cases outcome with
  | skipped => exact (List.append_nil done).symm ▸ kept
  | cancelled => exact (List.append_nil done).symm ▸ kept
  | @through diagnostics after _ ran =>
    rw [runs.id, runs.plan] at ran
    rw [ran] at left
    simp only [Step.LeavesRecord] at left
    rw [(passed_booked k s diagnostics { p with bench := after }).bench, Option.toList_some]
    split at left
    · rename_i recorded
      obtain ⟨content, read, pushed⟩ := left
      exact kept.recorded (by simp [recordable, recorded]) ⟨rfl, rfl, read⟩ pushed
    · rename_i unrecorded
      exact kept.unrecorded (by simp [recordable, unrecorded]) left
  | @failed e after _ ran =>
    rw [runs.id, runs.plan] at ran
    rw [ran] at left
    rw [(stumbled_booked k s e { p with bench := after }).bench, Option.toList_none,
      List.append_nil]
    exact kept.of_same left

theorem between_kept (c : Collaborators σ) (k : Conditions σ) (plan : Plan) (b : Bench σ)
    (n : Nat) : Kept plan b.undo (completedBy c k plan b n) (between c k plan b n).bench.undo := by
  refine (attemptAll_invariant (fun done p => p.Runs plan ∧ Kept plan b.undo done p.bench.undo)
    (fun done p s _ ⟨runs, kept⟩ => ⟨attempt_runs runs s, attempt_kept runs kept s⟩)
    ⟨prepare_runs c k plan b, ?_⟩).2
  obtain ⟨-, -, -, undo, -⟩ := prepare_effect c k plan b
  rw [undo]
  exact .refl plan b.undo

/-- A run that was undone or is not to keep its records leaves none, any other leaves the
stack as it was behind the last step. -/
theorem run_stacks (c : Collaborators σ) (k : Conditions σ) (plan : Plan) (b : Bench σ) :
    (run c k plan b).2.undo.stack plan.id =
        (if (run c k plan b).1.status = .rolledBack ∨ plan.request.rollback = false then []
        else (between c k plan b plan.steps.length).bench.undo.stack plan.id) ∧
      ∀ other, other ≠ plan.id → (run c k plan b).2.undo.stack other = b.undo.stack other := by
  obtain ⟨-, -, undo, ending, dropped⟩ := run_ending c k plan b
  have kept := between_kept c k plan b plan.steps.length
  have others : ∀ other, other ≠ plan.id → undo.stack other = b.undo.stack other := by
    intro other different
    have untouched := kept.others other different
    cases ending with
    | undone _ _ _ emptied => rw [emptied, UndoStacks.stack_discard_other different, untouched]
    | failed _ _ same => rw [same, untouched]
    | completed _ _ _ _ same => rw [same, untouched]
  rw [dropped]
  split
  · exact ⟨UndoStacks.stack_discard undo plan.id,
      fun other different => (UndoStacks.stack_discard_other different undo).trans
        (others other different)⟩
  · rename_i keeps
    refine ⟨?_, others⟩
    cases ending with
    | undone _ ends => exact absurd (Or.inl ends) keeps
    | failed _ _ same => rw [same]
    | completed _ _ _ _ same => rw [same]

/-- Between any two steps the stack of a run holds, above what it held at the start, one
record of the previous content for each completed step that writes a file, and so it does
after the run unless the records are dropped. No other stack ever changes. -/
theorem stack_records_completed_steps (c : Collaborators σ) (k : Conditions σ) (plan : Plan)
    (b : Bench σ) :
    (∀ n, (between c k plan b n).run.execution.completed =
        (completedBy c k plan b n).map (·.step.id) ∧
      Kept plan b.undo (completedBy c k plan b n) (between c k plan b n).bench.undo) ∧
    (run c k plan b).1.execution.completed =
      (completedBy c k plan b plan.steps.length).map (·.step.id) ∧
    (run c k plan b).2.undo.stack plan.id =
      (if (run c k plan b).1.status = .rolledBack ∨ plan.request.rollback = false then []
      else (between c k plan b plan.steps.length).bench.undo.stack plan.id) ∧
    ∀ other, other ≠ plan.id → (run c k plan b).2.undo.stack other = b.undo.stack other := by
  obtain ⟨same, -⟩ := run_ending c k plan b
  exact ⟨fun n => ⟨between_completed c k plan b n, between_kept c k plan b n⟩,
    same.completed.trans (between_completed c k plan b _), run_stacks c k plan b⟩

end Execution

end Uplift
