import Uplift.Proofs.Run.Calls
import Uplift.Run.Executor

/-!
# The phases of a run

After each step the executor writes down what it came to. These entries change counts,
messages and lists of steps, and nothing that later steps depend on (`Progress.Booked`).
Before the first step and behind the last one only the backup changes the store.
-/

namespace Uplift

variable {σ : Type}

structure Progress.Booked (p p' : Progress σ) : Prop where
  id : p'.run.id = p.run.id
  plan : p'.run.plan = p.run.plan
  status : p'.run.status = p.run.status
  bench : p'.bench = p.bench
  moves : p'.moves = p.moves

theorem Progress.Booked.refl (p : Progress σ) : Booked p p := ⟨rfl, rfl, rfl, rfl, rfl⟩

theorem Progress.Booked.trans {p₁ p₂ p₃ : Progress σ} (h : Booked p₁ p₂)
    (h' : Booked p₂ p₃) : Booked p₁ p₃ :=
  ⟨h'.id.trans h.id, h'.plan.trans h.plan, h'.status.trans h.status, h'.bench.trans h.bench,
    h'.moves.trans h.moves⟩

theorem Run.status_become {r : Run} {next : Status} (allowed : r.status.canBecome next = true) :
    (r.become next).2.status = next := by
  have moves : r.execution.status.canBecome next = true := allowed
  unfold become status ExecutionRecord.transition
  rw [if_pos moves]

namespace Execution

theorem foldl_warn (diagnostics : List Diagnostic) (p : Progress σ) :
    diagnostics.foldl (fun p d => p.warn d.render) p =
      { p with run := { p.run with execution := { p.run.execution with
          warnings := p.run.execution.warnings ++ diagnostics.map Diagnostic.render } } } := by
  induction diagnostics generalizing p with
  | nil => simp
  | cons d rest ih =>
    rw [List.foldl_cons, ih]
    simp [Progress.warn, Run.warn]

theorem passed_booked (k : Conditions σ) (s : Step) (diagnostics : List Diagnostic)
    (p : Progress σ) : Progress.Booked p (passed k s diagnostics p) := by
  unfold passed
  dsimp only
  rw [foldl_warn]
  split <;> exact ⟨rfl, rfl, rfl, rfl, rfl⟩

theorem stumbled_booked (k : Conditions σ) (s : Step) (e : StepError)
    (p : Progress σ) : Progress.Booked p (stumbled k s e p) := by
  unfold stumbled
  dsimp only
  split <;> exact ⟨rfl, rfl, rfl, rfl, rfl⟩

theorem cancel_booked (k : Conditions σ) (s : Step) (p : Progress σ) :
    Progress.Booked p (cancel k s p) := ⟨rfl, rfl, rfl, rfl, rfl⟩

theorem aborted_stumbled (k : Conditions σ) (s : Step) (e : StepError)
    (p : Progress σ) : (stumbled k s e p).aborted = (s.risk.aborts || p.aborted) := by
  unfold stumbled
  dsimp only
  split
  · rename_i aborts
    rw [aborts]
    rfl
  · rename_i goesOn
    rw [Bool.eq_false_iff.mpr goesOn]
    rfl

theorem foldl_log (k : Conditions σ) (failures : List UndoFailure) (p : Progress σ) :
    failures.foldl (fun p f => p.log k s!"Rollback: {f.message}") p =
      { p with run := { p.run with artifacts := { p.run.artifacts with
          logs := p.run.artifacts.logs ++
            failures.map fun f => ⟨p.bench.time k, s!"Rollback: {f.message}"⟩ } } } := by
  induction failures generalizing p with
  | nil => simp
  | cons f rest ih =>
    rw [List.foldl_cons, ih]
    simp [Progress.log, Run.log]

/-! ### Before the first step and behind the last one -/

theorem finish_effect (k : Conditions σ) (p : Progress σ) :
    (finish k p).run.status = p.run.status ∧ (finish k p).bench.settle.store = p.bench.settle.store ∧
      (finish k p).bench.undo =
        if p.run.status = .rolledBack ∨ p.run.plan.request.rollback = false then
          p.bench.undo.discard p.run.id
        else p.bench.undo := by
  unfold finish
  refine ⟨rfl, rfl, ?_⟩
  by_cases status : p.run.status = .rolledBack <;> simp [Progress.log, status]

variable [FileStore σ]

theorem measure_effect (k : Conditions σ) (paths : List Path) (b : Bench σ) :
    (measure k paths b).2.settle.store = b.settle.store ∧ (measure k paths b).2.undo = b.undo := by
  have store := Bench.store_settle_call k (Call.query fun store => .ok (totals store paths)) b
  have undo := Bench.undo_call k (Call.query fun store => .ok (totals store paths)) b
  unfold measure
  rcases called : b.call k (Call.query fun store => .ok (totals store paths)) with ⟨result, b'⟩
  rw [called] at store undo
  cases result <;> exact ⟨store, undo⟩

theorem prepare_effect (c : Collaborators σ) (k : Conditions σ) (plan : Plan)
    (b : Bench σ) :
    (prepare c k plan b).2.run.id = plan.id ∧ (prepare c k plan b).2.run.plan = plan ∧
      (prepare c k plan b).2.run.status = .running ∧
      (prepare c k plan b).2.bench.undo = b.undo ∧
      ((prepare c k plan b).2.bench.settle.store = b.settle.store ∨
        (prepare c k plan b).2.bench.settle.store = (c.backup plan b.settle.store).after) := by
  obtain ⟨store, undo⟩ := measure_effect k plan.risk.backups b
  unfold prepare
  dsimp only
  split
  · have store' := Bench.store_settle_call k (c.backup plan) (start k plan b).bench
    have undo' := Bench.undo_call k (c.backup plan) (start k plan b).bench
    have before : (start k plan b).bench.settle.store = b.settle.store := store
    rw [before] at store'
    have kept : (start k plan b).bench.undo = b.undo := undo
    rw [kept] at undo'
    unfold makeBackup
    have own : (start k plan b).run.plan = plan := rfl
    rw [own]
    rcases called : (start k plan b).bench.call k (c.backup plan) with ⟨result, bench⟩
    rw [called] at store' undo'
    cases result <;> exact ⟨rfl, rfl, rfl, undo', Or.inr store'⟩
  · exact ⟨rfl, rfl, rfl, undo, Or.inl store⟩

end Execution

end Uplift
