import Uplift.Proofs.Run.Completion

/-!
# A dry run leaves the store as it is

A dry run calls no collaborator; it only asks the store for the sizes of files. No effect
is then on its way that would change the store later (`Bench.Still`).
-/

namespace Uplift

variable {σ : Type}

structure Bench.Still (store : σ) (b : Bench σ) : Prop where
  now : b.store = store
  later : ∀ effect ∈ b.overdue, effect store = store

namespace Bench.Still

variable {store : σ} {b : Bench σ}

theorem settled (still : Still store b) : b.settle.store = store := by
  have unmoved (effects : List (σ → σ)) (calm : ∀ effect ∈ effects, effect store = store) :
      effects.foldl (fun store effect => effect store) store = store := by
    induction effects with
    | nil => rfl
    | cons effect rest ih =>
      rw [List.foldl_cons, calm effect (List.mem_cons_self ..)]
      exact ih fun later member => calm later (List.mem_cons_of_mem _ member)
  unfold settle
  rw [still.now]
  exact unmoved b.overdue still.later

theorem query {α : Type} (still : Still store b) (k : Conditions σ)
    (f : σ → Except CollaboratorError α) : Still store (b.call k (Call.query f)).2 := by
  unfold Bench.call
  dsimp only
  split
  · refine ⟨still.settled, ?_⟩
    intro effect late
    obtain rfl := List.mem_singleton.mp late
    rfl
  · refine ⟨still.settled, ?_⟩
    intro effect late
    cases late

end Bench.Still

namespace Execution

variable [FileStore σ] {c : Collaborators σ} {k : Conditions σ} {plan : Plan} {store : σ}

theorem measure_still {b : Bench σ} (still : b.Still store) (paths : List Path) :
    (measure k paths b).2.Still store := by
  have asked := still.query k fun store => .ok (totals store paths)
  unfold measure
  rcases called : b.call k (.query fun store => .ok (totals store paths)) with ⟨result, b'⟩
  rw [called] at asked
  cases result <;> exact asked

theorem attempt_dry {p : Progress σ} (dry : p.run.plan.request.dryRun = true) (s : Step) :
    Progress.Booked p (attempt c k p s) := by
  unfold attempt
  split
  · exact .refl p
  · split
    · exact cancel_booked k s p
    · rw [dry]
      unfold Step.run
      rw [if_pos rfl]
      cases s.check c.validator s.transformed with
      | ok diagnostics => exact passed_booked k s diagnostics p
      | error e => exact stumbled_booked k s e p

theorem attemptAll_dry {p : Progress σ} (dry : p.run.plan.request.dryRun = true)
    (steps : List Step) : Progress.Booked p (attemptAll c k steps p) := by
  refine attemptAll_invariant (fun _ p' => Progress.Booked p p') ?_ (.refl p)
  intro _ p' s _ booked
  exact booked.trans (attempt_dry (booked.plan ▸ dry) s)

theorem bench_conclude_dry {p : Progress σ} (dry : p.run.plan.request.dryRun = true) :
    (conclude c k p).bench = p.bench := by
  unfold conclude
  dsimp only
  rw [dry]
  simp only [Bool.not_true, Bool.and_false, Bool.false_eq_true, if_false]
  split <;> rfl

theorem prepare_dry (c : Collaborators σ) (k : Conditions σ) (b : Bench σ)
    (dry : plan.request.dryRun = true) : prepare c k plan b = (true, start k plan b) := by
  unfold prepare
  simp [dry]

theorem run_dry {b : Bench σ} (dry : plan.request.dryRun = true) (still : b.Still store) :
    (run c k plan b).2.Still store := by
  have started : (start k plan b).bench.Still store := measure_still still plan.risk.backups
  have steps := attemptAll_dry (c := c) (k := k) (p := start k plan b) dry plan.steps
  unfold run runToEnd
  rw [prepare_dry c k b dry]
  dsimp only
  generalize attemptAll c k plan.steps (start k plan b) = p at steps
  have own : p.run.plan.request.dryRun = true := by rw [steps.plan]; exact dry
  have concluded : (conclude c k p).bench.Still store := by
    rw [bench_conclude_dry own, steps.bench]
    exact started
  obtain ⟨now, later⟩ := measure_still (k := k) concluded (conclude c k p).run.plan.risk.backups
  rw [if_pos rfl]
  exact ⟨now, later⟩

end Execution

end Uplift
