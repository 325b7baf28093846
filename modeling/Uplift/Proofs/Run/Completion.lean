import Uplift.Proofs.Run.Phases

/-!
# Completions

An attempt at a step comes to one of four things, and `attempt_cases` says all that each of
them does. The step comes through in one of them. `completions` lists the steps that come
through in a row of attempts, each with the benches around it. The induction over the
steps is made once (`attemptAll_invariant`): what every attempt keeps of the progress and
the completions so far holds between any two steps.
-/

namespace Uplift

variable {σ : Type}

/-- A step that came through, with the bench it met and the bench it left. -/
structure Completion (σ : Type) where
  step : Step
  before : Bench σ
  after : Bench σ

structure Progress.Runs (plan : Plan) (p : Progress σ) : Prop where
  id : p.run.id = plan.id
  plan : p.run.plan = plan
  status : p.run.status = .running

theorem Progress.Runs.booked {plan : Plan} {p p' : Progress σ} (runs : Runs plan p)
    (booked : Booked p p') : Runs plan p' :=
  ⟨booked.id.trans runs.id, booked.plan.trans runs.plan, booked.status.trans runs.status⟩

theorem Progress.Runs.ends {plan : Plan} {p : Progress σ} (runs : Runs plan p) {next : Status}
    (allowed : Status.running.canBecome next = true) : (p.become next).run.status = next :=
  Run.status_become (by rw [runs.status]; exact allowed)

namespace Execution

/-! ### The lists of steps -/

theorem passed_steps (k : Conditions σ) (s : Step) (diagnostics : List Diagnostic)
    (p : Progress σ) :
    (passed k s diagnostics p).run.execution.completed = p.run.execution.completed ++ [s.id] ∧
      (passed k s diagnostics p).run.execution.failed = p.run.execution.failed ∧
      (passed k s diagnostics p).aborted = p.aborted := by
  unfold passed
  dsimp only
  rw [foldl_warn]
  split <;> exact ⟨rfl, rfl, rfl⟩

theorem stumbled_steps (k : Conditions σ) (s : Step) (e : StepError) (p : Progress σ) :
    (stumbled k s e p).run.execution.completed = p.run.execution.completed ∧
      (stumbled k s e p).run.execution.failed = p.run.execution.failed ++ [s.id] := by
  unfold stumbled
  dsimp only
  split <;> exact ⟨rfl, rfl⟩

variable [FileStore σ]

/-! ### Attempts -/

def completion? (c : Collaborators σ) (k : Conditions σ) (p : Progress σ) (s : Step) :
    Option (Completion σ) :=
  if p.aborted then none
  else if k.cancelled p.attempted p.bench.store then none
  else
    match s.run c k p.run.id p.run.plan.request.dryRun p.bench with
    | (.ok _, after) => some ⟨s, p.bench, after⟩
    | (.error _, _) => none

def completions (c : Collaborators σ) (k : Conditions σ) (p : Progress σ) :
    List Step → List (Completion σ)
  | [] => []
  | s :: rest => (completion? c k p s).toList ++ completions c k (attempt c k p s) rest

variable {c : Collaborators σ} {k : Conditions σ} {p : Progress σ} {s : Step} {plan : Plan}

inductive Outcome (c : Collaborators σ) (k : Conditions σ) (p : Progress σ) (s : Step) :
    Option (Completion σ) → Progress σ → Prop
  | skipped (aborted : p.aborted = true) : Outcome c k p s none p
  | cancelled (running : p.aborted = false)
      (asked : k.cancelled p.attempted p.bench.store = true) :
      Outcome c k p s none (cancel k s p)
  | through {diagnostics : List Diagnostic} {after : Bench σ} (running : p.aborted = false)
      (ran : s.run c k p.run.id p.run.plan.request.dryRun p.bench = (.ok diagnostics, after)) :
      Outcome c k p s (some ⟨s, p.bench, after⟩) (passed k s diagnostics { p with bench := after })
  | failed {e : StepError} {after : Bench σ} (running : p.aborted = false)
      (ran : s.run c k p.run.id p.run.plan.request.dryRun p.bench = (.error e, after)) :
      Outcome c k p s none (stumbled k s e { p with bench := after })

theorem attempt_cases (c : Collaborators σ) (k : Conditions σ) (p : Progress σ) (s : Step) :
    Outcome c k p s (completion? c k p s) (attempt c k p s) := by
  unfold completion? attempt
  by_cases ended : p.aborted = true
  · rw [if_pos ended, if_pos ended]
    exact .skipped ended
  · rw [if_neg ended, if_neg ended]
    have running : p.aborted = false := Bool.eq_false_iff.mpr ended
    by_cases asked : k.cancelled p.attempted p.bench.store = true
    · rw [if_pos asked, if_pos asked]
      exact .cancelled running asked
    · rw [if_neg asked, if_neg asked]
      rcases ran : s.run c k p.run.id p.run.plan.request.dryRun p.bench with ⟨result, after⟩
      cases result with
      | ok diagnostics => exact .through running ran
      | error e => exact .failed running ran

theorem attempt_runs (runs : p.Runs plan) (s : Step) : (attempt c k p s).Runs plan := by
  have outcome := attempt_cases c k p s
  generalize completion? c k p s = done at outcome
  generalize attempt c k p s = p' at outcome
  cases outcome with
  | skipped => exact runs
  | cancelled => exact runs.booked (cancel_booked k s p)
  | @through _ after =>
    have moved : Progress.Runs plan { p with bench := after } := ⟨runs.id, runs.plan, runs.status⟩
    exact moved.booked (passed_booked k s _ _)
  | @failed _ after =>
    have moved : Progress.Runs plan { p with bench := after } := ⟨runs.id, runs.plan, runs.status⟩
    exact moved.booked (stumbled_booked k s _ _)

theorem attempt_completed (s : Step) :
    (attempt c k p s).run.execution.completed =
      p.run.execution.completed ++ (completion? c k p s).toList.map (·.step.id) := by
  have outcome := attempt_cases c k p s
  generalize completion? c k p s = done at outcome
  generalize attempt c k p s = p' at outcome
  cases outcome with
  | skipped => exact (List.append_nil _).symm
  | cancelled => exact (List.append_nil _).symm
  | through => exact (passed_steps ..).1
  | failed => exact (stumbled_steps ..).1.trans (List.append_nil _).symm

/-! ### Attempts in a row -/

/-- What holds of the progress and the completions so far, and every attempt at one of the
steps keeps it, holds after all of them. -/
theorem attemptAll_invariant {steps : List Step}
    (inv : List (Completion σ) → Progress σ → Prop)
    (keeps : ∀ done p s, s ∈ steps → inv done p →
      inv (done ++ (completion? c k p s).toList) (attempt c k p s))
    (start : inv [] p) : inv (completions c k p steps) (attemptAll c k steps p) := by
  -- the completions so far come to vary with the progress, as each attempt adds to them
  suffices from_any : ∀ done p, inv done p →
      inv (done ++ completions c k p steps) (attemptAll c k steps p) from from_any [] p start
  clear start
  induction steps with
  | nil =>
    intro done p now
    rw [completions, List.append_nil]
    exact now
  | cons s rest ih =>
    intro done p now
    rw [completions, ← List.append_assoc]
    exact ih (fun done p s member => keeps done p s (List.mem_cons_of_mem _ member)) _ _
      (keeps done p s List.mem_cons_self now)

theorem attemptAll_runs (runs : p.Runs plan) (steps : List Step) :
    (attemptAll c k steps p).Runs plan :=
  attemptAll_invariant (fun _ p => p.Runs plan) (fun _ _ s _ runs => attempt_runs runs s) runs

theorem attemptAll_completed (p : Progress σ) (steps : List Step) :
    (attemptAll c k steps p).run.execution.completed =
      p.run.execution.completed ++ (completions c k p steps).map (·.step.id) := by
  refine attemptAll_invariant (fun done p' => p'.run.execution.completed =
    p.run.execution.completed ++ done.map (·.step.id)) ?_ (List.append_nil _).symm
  intro done p' s _ listed
  rw [attempt_completed, listed, List.map_append, List.append_assoc]

theorem attempt_of_aborted (aborted : p.aborted = true) (s : Step) : attempt c k p s = p := by
  unfold attempt
  rw [if_pos aborted]

theorem attemptAll_of_aborted (aborted : p.aborted = true) (steps : List Step) :
    attemptAll c k steps p = p := by
  refine attemptAll_invariant (fun _ p' => p' = p) ?_ rfl
  rintro - p' s - rfl
  exact attempt_of_aborted aborted s

theorem attemptAll_monotone (p : Progress σ) (steps : List Step) :
    (p.aborted = true → (attemptAll c k steps p).aborted = true) ∧
      p.run.execution.failed <+: (attemptAll c k steps p).run.execution.failed := by
  refine attemptAll_invariant (fun _ p' => (p.aborted = true → p'.aborted = true) ∧
    p.run.execution.failed <+: p'.run.execution.failed) ?_ ⟨id, List.prefix_refl _⟩
  rintro done p' s - ⟨aborted, failed⟩
  have outcome := attempt_cases c k p' s
  generalize completion? c k p' s = new at outcome
  generalize attempt c k p' s = p'' at outcome
  cases outcome with
  | skipped => exact ⟨aborted, failed⟩
  | cancelled => exact ⟨fun _ => rfl, failed⟩
  | @through diagnostics after =>
    obtain ⟨-, same, goesOn⟩ := passed_steps k s diagnostics { p' with bench := after }
    rw [same, goesOn]
    exact ⟨aborted, failed⟩
  | @failed e after =>
    rw [aborted_stumbled, (stumbled_steps k s e { p' with bench := after }).2]
    exact ⟨fun ended => by rw [show _ = true from aborted ended, Bool.or_true],
      failed.trans (List.prefix_append ..)⟩

theorem through_of_clean (running : (attempt c k p s).aborted = false)
    (clean : (attempt c k p s).run.execution.failed = []) :
    ∃ diagnostics after, s.run c k p.run.id p.run.plan.request.dryRun p.bench =
        (.ok diagnostics, after) ∧
      completion? c k p s = some ⟨s, p.bench, after⟩ ∧ (attempt c k p s).bench = after := by
  have outcome := attempt_cases c k p s
  generalize completion? c k p s = new at outcome
  generalize attempt c k p s = p' at outcome running clean
  cases outcome with
  | skipped aborted =>
    rw [aborted] at running
    cases running
  | cancelled => cases running
  | @through diagnostics after _ ran =>
    refine ⟨diagnostics, after, ran, rfl, ?_⟩
    exact (passed_booked k s diagnostics { p with bench := after }).bench
  | @failed e after =>
    rw [(stumbled_steps k s e { p with bench := after }).2] at clean
    exact absurd clean (List.append_ne_nil_of_right_ne_nil _ (List.cons_ne_nil _ _))

/-- Nothing that comes later makes up for a step that fails or ends the run. -/
theorem clean_before {steps : List Step} (went : (attemptAll c k steps p).aborted = false)
    (clean : (attemptAll c k steps p).run.execution.failed = []) :
    p.aborted = false ∧ p.run.execution.failed = [] := by
  obtain ⟨aborted, failed⟩ := attemptAll_monotone (c := c) (k := k) p steps
  rw [clean, List.prefix_nil] at failed
  refine ⟨Bool.eq_false_iff.mpr fun early => ?_, failed⟩
  rw [aborted early] at went
  cases went

/-- If the run went on to the end and nothing failed, then every step came through. -/
theorem steps_of_completions {steps : List Step}
    (went : (attemptAll c k steps p).aborted = false)
    (clean : (attemptAll c k steps p).run.execution.failed = []) :
    (completions c k p steps).map (·.step) = steps := by
  induction steps generalizing p with
  | nil => rfl
  | cons s rest ih =>
    have ended : attemptAll c k (s :: rest) p = attemptAll c k rest (attempt c k p s) := rfl
    rw [ended] at went clean
    obtain ⟨running, unfailed⟩ := clean_before went clean
    obtain ⟨-, after, -, came, -⟩ := through_of_clean running unfailed
    rw [completions, came, List.map_append, ih went clean]
    rfl

/-! ### Between two steps of a run -/

/-- The steps that a run gets to: none if it cannot make its backup. -/
def stepsBegun (c : Collaborators σ) (k : Conditions σ) (plan : Plan) (b : Bench σ) : List Step :=
  if (prepare c k plan b).1 then plan.steps else []

def between (c : Collaborators σ) (k : Conditions σ) (plan : Plan) (b : Bench σ) (n : Nat) :
    Progress σ :=
  attemptAll c k ((stepsBegun c k plan b).take n) (prepare c k plan b).2

def completedBy (c : Collaborators σ) (k : Conditions σ) (plan : Plan) (b : Bench σ) (n : Nat) :
    List (Completion σ) :=
  completions c k (prepare c k plan b).2 ((stepsBegun c k plan b).take n)

theorem prepare_steps (c : Collaborators σ) (k : Conditions σ) (plan : Plan) (b : Bench σ) :
    (prepare c k plan b).2.run.execution.completed = [] ∧
      (prepare c k plan b).2.run.execution.failed = [] ∧
      (prepare c k plan b).2.aborted = false := by
  unfold prepare
  dsimp only
  split
  · unfold makeBackup
    split <;> exact ⟨rfl, rfl, rfl⟩
  · exact ⟨rfl, rfl, rfl⟩

theorem prepare_runs (c : Collaborators σ) (k : Conditions σ) (plan : Plan) (b : Bench σ) :
    (prepare c k plan b).2.Runs plan := by
  obtain ⟨id, own, running, -⟩ := prepare_effect c k plan b
  exact ⟨id, own, running⟩

theorem between_runs (c : Collaborators σ) (k : Conditions σ) (plan : Plan) (b : Bench σ)
    (n : Nat) : (between c k plan b n).Runs plan :=
  attemptAll_runs (prepare_runs c k plan b) _

theorem between_completed (c : Collaborators σ) (k : Conditions σ) (plan : Plan) (b : Bench σ)
    (n : Nat) :
    (between c k plan b n).run.execution.completed =
      (completedBy c k plan b n).map (·.step.id) := by
  rw [between, attemptAll_completed, (prepare_steps c k plan b).1]
  exact List.nil_append _

end Execution

end Uplift
