import Uplift.Proofs.Engine.Rollback
import Uplift.Proofs.Run.Bookkeeping

/-!
# What the stored results say

A result is stored when a plan is executed, and it stands until the plan is executed again; only
a rollback changes it meanwhile. Its status is terminal at all times. Whether it counts as a
success was decided when the execution ended, and so flag and status agree unless a completed
run has been rolled back since (`success_rests_on_execution`).
-/

namespace Uplift

variable {σ : Type}

/-- The same result, or what a rollback has made of it since. -/
structure Run.UndoneAtMost (r r' : Run) : Prop where
  success : r'.outcome.success = r.outcome.success
  status : r'.status = r.status ∨ r'.status = .rolledBack

namespace Run.UndoneAtMost

theorem refl (r : Run) : UndoneAtMost r r := ⟨rfl, .inl rfl⟩

theorem trans {r₁ r₂ r₃ : Run} (h : UndoneAtMost r₁ r₂) (h' : UndoneAtMost r₂ r₃) :
    UndoneAtMost r₁ r₃ := by
  refine ⟨h'.success.trans h.success, ?_⟩
  rcases h'.status with same | undone
  · rw [same]
    exact h.status
  · exact .inr undone

end Run.UndoneAtMost

theorem Run.status_become_or (r : Run) (next : Status) :
    (r.become next).2.status = r.status ∨ (r.become next).2.status = next := by
  unfold become status ExecutionRecord.transition
  split
  · exact .inr rfl
  · exact .inl rfl

namespace Execution

theorem run_isTerminal [FileStore σ] (c : Collaborators σ) (k : Conditions σ) (plan : Plan)
    (b : Bench σ) : (run c k plan b).1.status.isTerminal = true := by
  obtain ⟨-, -, fails, -⟩ := run_status c k plan b
  cases ended : (run c k plan b).1.status with
  | completed | failed | rolledBack => rfl
  | pending | running =>
    rw [ended] at fails
    cases fails.mpr ⟨by decide, by decide⟩

end Execution

namespace Engine

variable [FileStore σ] {e e₁ : Engine σ} {id : String} {r run : Run}

/-! ### What an event does to a result -/

theorem undone_undoneAtMost (e : Engine σ) (now : Timestamp) (r : Run) :
    r.UndoneAtMost (e.undone now r).run := by
  obtain ⟨execution, outcome⟩ := Execution.unwind_books (e.conditions now fun _ _ => false)
    (Progress.log (e.conditions now fun _ _ => false) "Manual rollback requested"
      { bench := e.freshBench, run := r })
  have success : (e.undone now r).run.outcome.success = _ := congrArg Outcome.success outcome
  have status : (e.undone now r).run.status = _ := congrArg ExecutionRecord.status execution
  refine ⟨success, ?_⟩
  rw [status]
  exact Run.status_become_or ..

theorem executed?_ended {event : Event σ} (given : e.executed? id event = some run) :
    run.status.isTerminal = true ∧ (run.outcome.success = true ↔ run.status = .completed) := by
  cases event with
  | execute now plan cancelled =>
    have given : (if plan.id = id then
        (e.execute now plan cancelled).toOption.map (·.1) else none) = some run := given
    split at given
    · cases executed : e.execute now plan cancelled with
      | error refused =>
        rw [executed] at given
        cases given
      | ok done =>
        rw [executed] at given
        cases given
        obtain ⟨ran, -⟩ := execute_effect executed
        obtain ⟨-, -, -, success⟩ :=
          Execution.run_status e.collaborators (e.conditions now cancelled) plan e.freshBench
        dsimp only
        rw [ran]
        exact ⟨Execution.run_isTerminal .., success⟩
    · cases given
  | edit | rollBack | addPattern | removePattern => cases given

theorem result?_step (e : Engine σ) (event : Event σ)
    (stored : (e.step event).result? id = some r) :
    e.executed? id event = some r ∨
      (e.executed? id event = none ∧ ∃ r₀, e.result? id = some r₀ ∧ r₀.UndoneAtMost r) := by
  have outcome := e.step_cases event
  generalize e.step event = e₁ at stored outcome
  cases outcome with
  | kept results _ _ silent =>
    rw [result?, results] at stored
    exact .inr ⟨silent id, r, stored, .refl r⟩
  | @executed now plan cancelled run _ ran =>
    by_cases own : plan.id = id
    · rw [← own, (execute_ok ran).result?_self] at stored
      cases stored
      exact .inl (by simp [executed?, own, ran, Except.toOption])
    · rw [(execute_ok ran).result?_other (Ne.symm own)] at stored
      exact .inr ⟨by simp [executed?, own], r, stored, .refl r⟩
  | @undone now any run _ known results =>
    refine .inr ⟨rfl, ?_⟩
    by_cases own : id = any
    · rw [result?, results, own, Keyed.get?_insert_self] at stored
      cases stored
      exact ⟨run, own ▸ known, undone_undoneAtMost e now run⟩
    · rw [result?, results, Keyed.get?_insert_other own] at stored
      exact ⟨r, stored, .refl r⟩

/-! ### Histories -/

/-- What the last execution of the plan `id` among the events came to when it ended. -/
def lastExecuted? (id : String) (e : Engine σ) : List (Event σ) → Option Run
  | [] => none
  | event :: rest => (lastExecuted? id (e.step event) rest).or (e.executed? id event)

theorem lastExecuted?_ended {events : List (Event σ)}
    (last : lastExecuted? id e events = some run) :
    run.status.isTerminal = true ∧ (run.outcome.success = true ↔ run.status = .completed) := by
  induction events generalizing e with
  | nil => cases last
  | cons event rest ih =>
    rcases Option.or_eq_some_iff.mp last with later | ⟨-, now⟩
    · exact ih later
    · exact executed?_ended now

/-- A result is what the last execution came to, or, if there was none, what was there at the
start, rolled back at most. -/
theorem result?_after (events : List (Event σ)) (stored : (e.after events).result? id = some r) :
    (∃ run, lastExecuted? id e events = some run ∧ run.UndoneAtMost r) ∨
      (lastExecuted? id e events = none ∧ ∃ r₀, e.result? id = some r₀ ∧ r₀.UndoneAtMost r) := by
  induction events generalizing e with
  | nil => exact .inr ⟨rfl, r, stored, .refl r⟩
  | cons event rest ih =>
    rw [lastExecuted?]
    rcases ih stored with ⟨run, later, since⟩ | ⟨none, r₁, known, since⟩
    · exact .inl ⟨run, by rw [later, Option.some_or], since⟩
    · rw [none, Option.none_or]
      rcases result?_step e event known with given | ⟨silent, r₀, before, undone⟩
      · exact .inl ⟨r₁, given, since⟩
      · exact .inr ⟨silent, r₀, before, undone.trans since⟩

/-- Whatever happens to an engine, the results in it are those of the last executions, each
rolled back at most. So they have a terminal status, and one counts as a success if and only if
its execution completed, which agrees with its status unless the completed run has been rolled
back since. -/
theorem success_rests_on_execution {e : Engine σ} (unused : e.results = [])
    (events : List (Event σ)) {id : String} {r : Run}
    (stored : (e.after events).result? id = some r) :
    r.status.isTerminal = true ∧
      ∃ run, lastExecuted? id e events = some run ∧
        (r.outcome.success = true ↔ run.status = .completed) ∧
        (r.status = run.status ∨ r.status = .rolledBack) ∧
        ((r.outcome.success = true ↔ r.status = .completed) ↔
          ¬(run.status = .completed ∧ r.status = .rolledBack)) := by
  rcases result?_after events stored with ⟨run, last, since⟩ | ⟨-, r₀, known, -⟩
  · obtain ⟨terminal, success⟩ := lastExecuted?_ended last
    rw [← since.success] at success
    refine ⟨?_, run, last, success, since.status, ?_⟩
    · rcases since.status with same | undone
      · rw [same]
        exact terminal
      · rw [undone]
        rfl
    · rw [success]
      rcases since.status with same | undone
      · rw [same]
        cases run.status <;> simp
      · rw [undone]
        simp
  · rw [result?, unused] at known
    cases known

def undoneByHand : List (Event Memory) :=
  [.execute ⟨0, 0⟩ mixedSteps fun _ _ => false, .rollBack ⟨1, 0⟩ "m"]

theorem undoneByHand_result :
    ∃ r, (mixedEngine.after undoneByHand).result? "m" = some r ∧ r.status.isTerminal = true ∧
      r.status = .rolledBack ∧
      ∃ run, lastExecuted? "m" mixedEngine undoneByHand = some run ∧ run.status = .completed ∧
        r.outcome.success = true := by
  have facts : (∀ r ∈ (mixedEngine.after undoneByHand).result? "m", r.status = .rolledBack) ∧
      ∀ run ∈ lastExecuted? "m" mixedEngine undoneByHand, run.status = .completed := by
    decide +kernel
  obtain ⟨r, stored⟩ : ∃ r, (mixedEngine.after undoneByHand).result? "m" = some r := ⟨_, rfl⟩
  obtain ⟨terminal, run, last, success, -⟩ := success_rests_on_execution rfl undoneByHand stored
  have completed := facts.2 run last
  exact ⟨r, stored, terminal, facts.1 r stored, run, last, completed, success.mpr completed⟩

/-- The flag of a completed run outlives its rollback. -/
theorem rolledBack_run_counts_as_success :
    ¬∀ (events : List (Event Memory)) (id : String) (r : Run),
      (mixedEngine.after events).result? id = some r →
        r.status.isTerminal = true ∧ (r.outcome.success = true ↔ r.status = .completed) := by
  intro agrees
  have facts : ∀ r ∈ (mixedEngine.after undoneByHand).result? "m",
      r.outcome.success = true ∧ r.status = .rolledBack := by
    decide +kernel
  obtain ⟨r, stored⟩ : ∃ r, (mixedEngine.after undoneByHand).result? "m" = some r := ⟨_, rfl⟩
  obtain ⟨success, undone⟩ := facts r stored
  have completed := (agrees undoneByHand "m" r stored).2.mp success
  rw [undone] at completed
  cases completed

end Engine

end Uplift
