import Uplift.Proofs.Run.Bookkeeping
import Uplift.Proofs.Run.DryRun
import Uplift.Proofs.Run.Records

/-!
# A dry run has no effects

In a dry run a step is rehearsed: its rules are checked on its own content. The whole run is
then a function of the validator and of what the store reads (`run_eq_rehearsal`), so it
makes no other call, whatever the collaborators and the operations of the store are. It
leaves the files and the stacks as they are, and it is never undone.
-/

namespace Uplift

variable {σ : Type}

/-- The two read the same; they may write and remove in different ways. -/
def FileStore.ReadsAs (files other : FileStore σ) : Prop :=
  ∀ store path, files.read store path = other.read store path

namespace Execution

/-! ### Rehearsals -/

def rehearse (v : Validator) (k : Conditions σ) (p : Progress σ) (s : Step) : Progress σ :=
  if p.aborted then p
  else if k.cancelled p.attempted p.bench.store then cancel k s p
  else
    match s.check v s.transformed with
    | .ok diagnostics => passed k s diagnostics p
    | .error e => stumbled k s e p

def concludeRehearsal (p : Progress σ) : Progress σ :=
  if p.aborted then p.become .failed
  else
    let p := p.become .completed
    { p with run := { p.run with outcome := { p.run.outcome with success := true } } }

def rehearsal [FileStore σ] (v : Validator) (k : Conditions σ) (plan : Plan) (b : Bench σ) :
    Run × Bench σ :=
  let p := concludeRehearsal (plan.steps.foldl (rehearse v k) (start k plan b))
  let p := finish k (measureAfter k p)
  (p.run, p.bench)

section Runs

variable [FileStore σ] {c : Collaborators σ} {k : Conditions σ} {p : Progress σ} {plan : Plan}
  {b : Bench σ}

theorem attempt_eq_rehearse (dry : p.run.plan.request.dryRun = true) (s : Step) :
    attempt c k p s = rehearse c.validator k p s := by
  unfold attempt rehearse Step.run
  rw [dry, if_pos rfl]
  cases s.check c.validator s.transformed <;> rfl

theorem attemptAll_eq_rehearse (dry : p.run.plan.request.dryRun = true) (steps : List Step) :
    attemptAll c k steps p = steps.foldl (rehearse c.validator k) p := by
  induction steps generalizing p with
  | nil => rfl
  | cons s rest ih =>
    have still : (attempt c k p s).run.plan.request.dryRun = true := by
      rw [(attempt_dry dry s).plan]
      exact dry
    have unfolded : attemptAll c k (s :: rest) p = attemptAll c k rest (attempt c k p s) := rfl
    rw [unfolded, ih still, List.foldl_cons, attempt_eq_rehearse dry]

theorem conclude_eq_rehearsal (dry : p.run.plan.request.dryRun = true) :
    conclude c k p = concludeRehearsal p := by
  unfold conclude concludeRehearsal
  simp [dry]

theorem run_eq_rehearsal (c : Collaborators σ) (k : Conditions σ) (b : Bench σ)
    (dry : plan.request.dryRun = true) : run c k plan b = rehearsal c.validator k plan b := by
  have own : (start k plan b).run.plan.request.dryRun = true := dry
  have steps : attemptAll c k plan.steps (start k plan b) =
      plan.steps.foldl (rehearse c.validator k) (start k plan b) := attemptAll_eq_rehearse own _
  have behind : (attemptAll c k plan.steps (start k plan b)).run.plan.request.dryRun = true := by
    rw [(attemptAll_dry own plan.steps).plan]
    exact own
  unfold run runToEnd rehearsal
  rw [prepare_dry c k b dry]
  dsimp only
  rw [if_pos rfl, conclude_eq_rehearsal behind, steps]

end Runs

/-! ### Stores that read the same -/

theorem totals_congr {files other : FileStore σ} (same : files.ReadsAs other) :
    @totals σ files = @totals σ other := by
  funext store paths
  have read : (fun p => (files.read store p).toOption) = fun p => (other.read store p).toOption :=
    funext fun p => by rw [same]
  unfold totals
  rw [read]

theorem measure_congr {files other : FileStore σ} (same : files.ReadsAs other) :
    @measure σ files = @measure σ other := by
  funext k paths b
  unfold measure
  rw [totals_congr same]

theorem rehearsal_congr {files other : FileStore σ} (same : files.ReadsAs other) :
    @rehearsal σ files = @rehearsal σ other := by
  funext v k plan b
  unfold rehearsal start measureBefore measureAfter
  rw [measure_congr same]

/-! ### What a dry run leaves -/

section Traces

variable [FileStore σ] {c : Collaborators σ} {k : Conditions σ} {plan : Plan} {b : Bench σ}

omit [FileStore σ] in
theorem recordable_dry (dry : plan.request.dryRun = true) (done : List (Completion σ)) :
    recordable plan done = [] := by
  unfold recordable Step.isRecorded
  rw [dry]
  exact List.filter_eq_nil_iff.mpr fun _ _ => Bool.false_ne_true

theorem between_stack_dry (c : Collaborators σ) (k : Conditions σ) (b : Bench σ)
    (dry : plan.request.dryRun = true) (n : Nat) (id : String) :
    (between c k plan b n).bench.undo.stack id = b.undo.stack id := by
  have kept := between_kept c k plan b n
  by_cases own : id = plan.id
  · obtain ⟨records, recorded, stack⟩ := kept.own
    rw [recordable_dry dry, List.forall₂_nil_left_iff] at recorded
    rw [own, stack, recorded]
    rfl
  · exact kept.others id own

theorem run_store_dry (c : Collaborators σ) (k : Conditions σ) (b : Bench σ)
    (dry : plan.request.dryRun = true) :
    (run c k plan b).2.settle.store = b.settle.store := by
  obtain ⟨started, -⟩ := measure_effect k plan.risk.backups b
  have steps := attemptAll_dry (c := c) (k := k) (p := start k plan b) dry plan.steps
  unfold run runToEnd
  rw [prepare_dry c k b dry]
  dsimp only
  rw [if_pos rfl]
  generalize attemptAll c k plan.steps (start k plan b) = p at steps
  have own : p.run.plan.request.dryRun = true := by
    rw [steps.plan]
    exact dry
  have concluded : (conclude c k p).bench = (start k plan b).bench := by
    rw [bench_conclude_dry own, steps.bench]
  obtain ⟨measured, -⟩ := measure_effect k (conclude c k p).run.plan.risk.backups
    (conclude c k p).bench
  rw [(finish_effect k _).2.1]
  calc (measureAfter k (conclude c k p)).bench.settle.store
    _ = (conclude c k p).bench.settle.store := measured
    _ = (start k plan b).bench.settle.store := by rw [concluded]
    _ = b.settle.store := started

theorem run_outcome_dry (c : Collaborators σ) (k : Conditions σ) (b : Bench σ)
    (dry : plan.request.dryRun = true) :
    (run c k plan b).1.outcome.changes = 0 ∧ (run c k plan b).1.outcome.testsPassed = 0 ∧
      (run c k plan b).1.outcome.testsFailed = 0 := by
  have accounts := attemptAll_accounts c k (start k plan b) plan.steps
  have own : (start k plan b).run.plan.request.dryRun = true := dry
  have outcome := accounts.outcome
  rw [attemptAll_eq_rehearse own, own, if_pos rfl] at outcome
  rw [run_eq_rehearsal c k b dry]
  unfold rehearsal
  dsimp only
  generalize plan.steps.foldl (rehearse c.validator k) (start k plan b) = p at outcome
  have ended : (concludeRehearsal p).run.outcome.changes = p.run.outcome.changes ∧
      (concludeRehearsal p).run.outcome.testsPassed = p.run.outcome.testsPassed ∧
      (concludeRehearsal p).run.outcome.testsFailed = p.run.outcome.testsFailed := by
    unfold concludeRehearsal
    split <;> exact ⟨rfl, rfl, rfl⟩
  rw [outcome] at ended
  exact ended

end Traces

/-- A dry run is a function of the validator and of what the store reads: no write, removal,
backup, update or test is among its calls, and files and stacks stay as they are. It counts
no change and no test, and it completes or fails, but is never undone. -/
theorem dry_run_pure [files : FileStore σ] (c : Collaborators σ) (k : Conditions σ)
    (plan : Plan) (b : Bench σ) (dry : plan.request.dryRun = true) :
    let ended := run c k plan b
    (∀ (other : FileStore σ) (c' : Collaborators σ), other.ReadsAs files →
        c'.validator = c.validator → @run σ other c' k plan b = ended) ∧
      ended.2.settle.store = b.settle.store ∧
      (∀ n id, (between c k plan b n).bench.undo.stack id = b.undo.stack id) ∧
      (∀ id, ended.2.undo.stack id =
        if id = plan.id ∧ plan.request.rollback = false then [] else b.undo.stack id) ∧
      (ended.1.outcome.changes = 0 ∧ ended.1.outcome.testsPassed = 0 ∧
        ended.1.outcome.testsFailed = 0) ∧
      (ended.1.status = .completed ∨ ended.1.status = .failed) := by
  obtain ⟨-, rollsBack, fails, -⟩ := run_status c k plan b
  have stands : (run c k plan b).1.status ≠ .rolledBack := by
    rw [ne_eq, rollsBack, dry]
    simp
  refine ⟨fun other c' same validator => ?_, run_store_dry c k b dry,
    between_stack_dry c k b dry, fun id => ?_, run_outcome_dry c k b dry, ?_⟩
  · calc @run σ other c' k plan b
      _ = @rehearsal σ other c'.validator k plan b := @run_eq_rehearsal σ other plan c' k b dry
      _ = @rehearsal σ files c.validator k plan b := by rw [validator, rehearsal_congr same]
      _ = @run σ files c k plan b := (@run_eq_rehearsal σ files plan c k b dry).symm
  · obtain ⟨own, others⟩ := run_stacks c k plan b
    by_cases same : id = plan.id
    · rw [same, own, between_stack_dry c k b dry]
      simp [stands]
    · rw [others id same]
      simp [same]
  · by_cases completed : (run c k plan b).1.status = .completed
    · exact .inl completed
    · exact .inr (fails.mpr ⟨completed, stands⟩)

/-- A step of critical risk whose content breaks its rule. -/
def rejectedRehearsal : Plan where
  id := "m"
  request := { source := "1", target := "2", dryRun := true }
  risk := { backups := [⟨"a.js"⟩] }
  steps := [
    { id := ⟨"1"⟩, kind := .codeTransformation, path := ⟨"a.js"⟩, original := some "var a;",
      transformed := some "let a;" },
    { id := ⟨"2"⟩, kind := .fileOperation, path := ⟨"b.json"⟩, transformed := some "(",
      risk := .critical, rules := [⟨.form, "json", .error⟩] }]

def rehearsalBench : Bench Memory where
  store := { files := [(⟨"a.js"⟩, "var a;")], readOnly := [⟨"b.json"⟩] }
  undo := [("m", [⟨⟨"0"⟩, ⟨"a.js"⟩, none⟩])]

theorem rejectedRehearsal_traceless :
    let ended := run (Collaborators.standard {}) { deadline := 10 } rejectedRehearsal
      rehearsalBench
    rejectedRehearsal.request.dryRun = true ∧ rejectedRehearsal.request.undoesOnAbort = true ∧
      ended.1.status = .failed ∧ ended.1.outcome.changes = 0 ∧
      ended.2.settle.store = rehearsalBench.store ∧
      ended.2.undo.stack "m" = [⟨⟨"0"⟩, ⟨"a.js"⟩, none⟩] := by
  obtain ⟨-, store, -, kept, ⟨changes, -⟩, ends⟩ := dry_run_pure (Collaborators.standard {})
    { deadline := 10 } rejectedRehearsal rehearsalBench rfl
  refine ⟨rfl, rfl, ends.resolve_left (by decide), changes, store, (kept "m").trans (by decide)⟩

end Execution

end Uplift
