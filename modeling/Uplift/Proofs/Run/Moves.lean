import Uplift.Proofs.Run.Ending

/-!
# The moves of a run's status

Every move that a run asks its status to make is kept with its answer. The moves of a run that
is under way are all granted, and each of them starts where the last one has led
(`Progress.Led`). Entries in the books of the run leave them as they are, a further move that
is allowed adds to them, and so no move of a whole run is refused (`runToEnd_led`).
-/

namespace Uplift

variable {σ : Type}

/-- Moves that were all granted, each of them asked for where the last one led to. -/
inductive Granted : Status → List Transition → Status → Prop where
  | none (s : Status) : Granted s [] s
  | more {s t : Status} {moves : List Transition} (led : Granted s moves t) (next : Status) :
      Granted s (moves ++ [⟨t, next, true⟩]) next

theorem Granted.answers {s t : Status} {moves : List Transition} (led : Granted s moves t) :
    ∀ move ∈ moves, move.granted = true := by
  induction led with
  | none => exact fun _ none => nomatch none
  | more _ next ih =>
    intro move member
    rcases List.mem_append.mp member with earlier | last
    · exact ih move earlier
    · rw [List.mem_singleton.mp last]

def Progress.Led (p : Progress σ) : Prop := Granted .pending p.moves p.run.status

namespace Progress.Led

variable {p p' : Progress σ}

theorem booked (led : p.Led) (booked : Booked p p') : p'.Led := by
  unfold Led
  rw [booked.moves, booked.status]
  exact led

theorem become (led : p.Led) {next : Status} (allowed : p.run.status.canBecome next = true) :
    (p.become next).Led := by
  have answer : (p.run.become next).1 = true := by
    have moves : p.run.execution.status.canBecome next = true := allowed
    unfold Run.become ExecutionRecord.transition
    rw [if_pos moves]
  unfold Led Progress.become
  dsimp only
  rw [Run.status_become allowed, answer]
  exact led.more next

end Progress.Led

namespace Execution

variable {c : Collaborators σ} {k : Conditions σ} {p : Progress σ} {plan : Plan} {b : Bench σ}

theorem runTests_led (led : p.Led) : (runTests c k p).Led := by
  unfold runTests
  rcases p.bench.call k c.tests with ⟨result, bench⟩
  cases result with
  | ok report =>
    dsimp only
    split <;> exact led
  | error e => exact led

variable [FileStore σ]

theorem attempt_led (led : p.Led) (s : Step) : (attempt c k p s).Led := by
  have outcome := attempt_cases c k p s
  generalize completion? c k p s = done at outcome
  generalize attempt c k p s = p' at outcome
  cases outcome with
  | skipped => exact led
  | cancelled => exact led.booked (cancel_booked k s p)
  | @through _ after =>
    have moved : Progress.Led { p with bench := after } := led
    exact moved.booked (passed_booked k s _ _)
  | @failed _ after =>
    have moved : Progress.Led { p with bench := after } := led
    exact moved.booked (stumbled_booked k s _ _)

theorem attemptAll_led (led : p.Led) (steps : List Step) : (attemptAll c k steps p).Led :=
  attemptAll_invariant (fun _ p => p.Led) (fun _ _ s _ led => attempt_led led s) led

theorem start_led (k : Conditions σ) (plan : Plan) (b : Bench σ) : (start k plan b).Led :=
  Granted.more (.none .pending) .running

theorem prepare_led (c : Collaborators σ) (k : Conditions σ) (plan : Plan) (b : Bench σ) :
    (prepare c k plan b).2.Led := by
  have started := start_led k plan b
  unfold prepare
  dsimp only
  split
  · unfold makeBackup
    split <;> exact started
  · exact started

theorem unwind_led (led : p.Led) (allowed : p.run.status.canBecome .rolledBack = true) :
    (unwind k p).Led := by
  have ended := led.become allowed
  unfold unwind
  dsimp only
  rw [foldl_log]
  exact ended

/-- A run that is under way is asked to fail and, if it is undone, to be rolled back, or it is
asked to complete. -/
theorem conclude_led (runs : p.Runs plan) (led : p.Led) : (conclude c k p).Led := by
  have running := runs.status
  unfold conclude
  dsimp only
  split
  · have failed : (p.become .failed).run.status = .failed := runs.ends rfl
    have stopped : (p.become .failed).Led := led.become (by rw [running]; rfl)
    split
    · exact unwind_led stopped (by rw [failed]; rfl)
    · exact stopped
  · split
    · have still : (runTests c k p).run.status = .running :=
        (runTests_ending c k p).2.1.trans running
      exact (runTests_led led).become (by rw [still]; rfl)
    · exact led.become (by rw [running]; rfl)

/-- Whatever way a run takes, its status is led to its end by moves that are all granted. -/
theorem runToEnd_led (c : Collaborators σ) (k : Conditions σ) (plan : Plan) (b : Bench σ) :
    (runToEnd c k plan b).Led := by
  have runs := between_runs c k plan b plan.steps.length
  have led : (between c k plan b plan.steps.length).Led :=
    attemptAll_led (prepare_led c k plan b) _
  rw [runToEnd_eq]
  dsimp only
  generalize between c k plan b plan.steps.length = p at runs led ⊢
  cases (prepare c k plan b).1 with
  | false =>
    have failed : (p.become .failed).Led := led.become (by rw [runs.status]; rfl)
    exact failed
  | true =>
    have concluded : (conclude c k p).Led := conclude_led runs led
    exact concluded

end Execution

end Uplift
