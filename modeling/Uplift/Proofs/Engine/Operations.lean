import Uplift.Engine.Basic
import Uplift.Proofs.Files.Saving
import Uplift.Proofs.Keyed
import Uplift.Proofs.Run.Records

/-!
# What the operations of an engine do

Executing a plan keeps its result, forgets that it was active and touches the stack of no
other migration (`execute_ok`). A rollback unwinds the stack of the stored run if there is
something on it (`rollback_of_records`), and otherwise does nothing.
-/

namespace Uplift

namespace Engine

variable {σ : Type} [FileStore σ] {e e' : Engine σ} {now : Timestamp} {plan : Plan}
  {cancelled : Nat → σ → Bool} {run : Run} {id : String}

def freshBench (e : Engine σ) : Bench σ := { e.bench with calls := 0, waited := 0 }

/-! ### Executing -/

structure Executed (e : Engine σ) (now : Timestamp) (plan : Plan) (cancelled : Nat → σ → Bool)
    (run : Run) (e' : Engine σ) : Prop where
  ran : (run, e'.bench) =
    Execution.run e.collaborators (e.conditions now cancelled) plan e.freshBench
  results : e'.results = e.results.insert plan.id run
  active : e'.active = (insertSorted plan.id e.active).filter (· ≠ plan.id)

theorem execute_effect (h : e.execute now plan cancelled = .ok (run, e')) :
    let ended := Execution.run e.collaborators (e.conditions now cancelled) plan e.freshBench
    run = ended.1 ∧ e' = { e with
      bench := ended.2
      results := e.results.insert plan.id run
      active := (insertSorted plan.id e.active).filter (· ≠ plan.id) } := by
  unfold execute at h
  obtain ⟨entered, free, h⟩ := bind_ok h
  unfold enter at free
  split at free
  · cases free
  · cases free
    cases h
    exact ⟨rfl, rfl⟩

theorem execute_ok (h : e.execute now plan cancelled = .ok (run, e')) :
    e.Executed now plan cancelled run e' := by
  obtain ⟨rfl, rfl⟩ := execute_effect h
  exact ⟨rfl, rfl, rfl⟩

theorem execute_id (h : e.execute now plan cancelled = .ok (run, e')) : run.id = plan.id := by
  obtain ⟨rfl, -⟩ := execute_effect h
  obtain ⟨same, -⟩ := Execution.run_ending e.collaborators (e.conditions now cancelled) plan
    e.freshBench
  exact same.id.trans (Execution.between_runs ..).id

theorem execute_collaborators (h : e.execute now plan cancelled = .ok (run, e')) :
    e'.collaborators = e.collaborators := by
  obtain ⟨-, rfl⟩ := execute_effect h
  rfl

namespace Executed

variable (h : e.Executed now plan cancelled run e')
include h

theorem result?_self : e'.result? plan.id = some run := by
  unfold result?
  rw [h.results]
  exact Keyed.get?_insert_self ..

theorem result?_other (different : id ≠ plan.id) : e'.result? id = e.result? id := by
  unfold result?
  rw [h.results]
  exact Keyed.get?_insert_other different ..

theorem isActive_self : e'.isActive plan.id = false := by
  unfold isActive
  rw [h.active]
  simp

theorem isActive_other (different : id ≠ plan.id) : e'.isActive id = e.isActive id := by
  unfold isActive
  rw [h.active]
  simp [mem_insertSorted, different]

theorem stack_other (different : id ≠ plan.id) :
    e'.bench.undo.stack id = e.bench.undo.stack id := by
  have others := (Execution.run_stacks e.collaborators (e.conditions now cancelled) plan
    e.freshBench).2 id different
  rw [← h.ran] at others
  exact others

end Executed

/-! ### Rolling back -/

theorem rollback_of_no_records (now : Timestamp) (idle : e.isActive id = false)
    (known : e.result? id = some run) (empty : e.bench.undo.hasRecords id = false) :
    e.rollback now id = .ok (false, e) := by
  simp [rollback, idle, known, empty]

/-- The run that is stored when `run` is rolled back. -/
def undone (e : Engine σ) (now : Timestamp) (run : Run) : Progress σ :=
  let k := e.conditions now fun _ _ => false
  let p : Progress σ := { bench := e.freshBench, run := run }
  Execution.unwind k (p.log k "Manual rollback requested")

theorem rollback_of_records (now : Timestamp) (idle : e.isActive id = false)
    (known : e.result? id = some run) (records : e.bench.undo.hasRecords id = true) :
    ∃ e', e.rollback now id = .ok (true, e') ∧
      e'.results = e.results.insert id (e.undone now run).run ∧ e'.active = e.active ∧
      e'.bench.settle.store = (e.undone now run).bench.settle.store ∧
      e'.bench.undo = (e.undone now run).bench.undo.discard id := by
  unfold rollback
  rw [idle, known, records]
  exact ⟨_, rfl, rfl, rfl, rfl, rfl⟩

theorem undone_effects (e : Engine σ) (now : Timestamp) (run : Run) :
    run.SameSteps (e.undone now run).run ∧ (e.undone now run).run.outcome.canRollBack = false ∧
      (e.undone now run).bench.settle.store =
        (unwindRecords e.bench.settle.store (e.bench.undo.stack run.id)).2 ∧
      (e.undone now run).bench.undo = e.bench.undo.discard run.id := by
  obtain ⟨same, unavailable, store, undo⟩ := Execution.unwind_effects
    (e.conditions now fun _ _ => false)
    (Progress.log (e.conditions now fun _ _ => false) "Manual rollback requested"
      { bench := e.freshBench, run := run })
  exact ⟨⟨same.id, same.plan, same.completed, same.failed⟩, unavailable, store, undo⟩

/-- A rollback does nothing, or it stores what has become of the run that it undoes and forgets
the records of that run. -/
theorem rollback_cases {did : Bool} (ran : e.rollback now id = .ok (did, e')) :
    (did = false ∧ e' = e) ∨
      (did = true ∧ ∃ run, e.result? id = some run ∧
        e'.results = e.results.insert id (e.undone now run).run ∧ e'.active = e.active ∧
        e'.bench.undo = (e.bench.undo.discard run.id).discard id) := by
  cases active : e.isActive id with
  | true => simp [rollback, active] at ran
  | false =>
    cases stored : e.result? id with
    | none => simp [rollback, active, stored] at ran
    | some run =>
      cases records : e.bench.undo.hasRecords id with
      | false =>
        rw [rollback_of_no_records now active stored records] at ran
        cases ran
        exact .inl ⟨rfl, rfl⟩
      | true =>
        obtain ⟨rolled, done, results, idle, -, undo⟩ :=
          rollback_of_records now active stored records
        obtain ⟨-, -, -, emptied⟩ := undone_effects e now run
        rw [done] at ran
        cases ran
        exact .inr ⟨rfl, run, rfl, results, idle, undo.trans (by rw [emptied])⟩

end Engine

end Uplift
