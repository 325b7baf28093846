import Uplift.Proofs.Engine.Rollback

/-!
# Running a plan again

The records of a plan stand on one stack, whichever run they are of. If a run completes and
keeps its records, then a later run of the plan begins on top of them, and if it is undone,
then they are restored as well. `aborted_rerun_restores_kept_records` says at which paths
that shows: at those whose oldest record holds something else than they did when the later
run began.
-/

namespace Uplift.Engine

variable {policy : ExecutionPolicy} {tests : Call Memory TestReport} {v : Validator}
  {e e₁ e₂ : Engine Memory} {now later : Timestamp} {plan : Plan}
  {cancelled cancelled' : Nat → Memory → Bool} {run run' : Run}

/-- What an aborted run brings back: what would come of unwinding the stack before it. -/
theorem get?_aborted
    (own : e.collaborators = { Collaborators.standard policy tests with validator := v })
    (real : plan.request.dryRun = false) (undoes : plan.request.undoesOnAbort = true)
    (executed : e.execute now plan cancelled = .ok (run, e₁))
    (aborts : Execution.Aborts e.collaborators (e.conditions now cancelled) plan e.freshBench) :
    run.status = .rolledBack ∧ e₁.bench.undo.stack plan.id = [] ∧
      ∀ q, ¬Backup.IsDestination policy.backupDir plan q →
        e₁.bench.settle.store.get? q =
          (e.bench.settle.store.restoreAll (e.bench.undo.stack plan.id)).get? q := by
  have ran := (execute_ok executed).ran
  rw [own] at ran aborts
  have stay := Collaborators.standard_stayOnPath policy tests v
  have unwound := Execution.aborted_run_unwinds stay real undoes aborts
  rw [← ran] at unwound
  obtain ⟨status, stack, files⟩ := unwound
  refine ⟨status, stack, fun q spared => (files.contents q).trans ?_⟩
  have start := Execution.get?_prepare tests v (e.conditions now cancelled) (b := e.freshBench)
    spared
  have readOnly := Execution.readOnly_prepare policy tests v
    (e.conditions now cancelled) plan e.freshBench
  rw [Memory.get?_restoreAll, Memory.get?_restoreAll, Memory.denies, readOnly, start]
  rfl

/-- An aborted run restores what is on the stack of its plan, also what earlier runs have left
there. A path that got no backup copy ends with what its oldest record holds, unless it is
read-only, and so it is back where the run began just if that is what it held then. -/
theorem aborted_rerun_restores_kept_records (policy : ExecutionPolicy)
    (tests : Call Memory TestReport) (v : Validator) {e e₁ : Engine Memory}
    (own : e.collaborators = { Collaborators.standard policy tests with validator := v })
    {now : Timestamp} {plan : Plan} {cancelled : Nat → Memory → Bool} {run : Run}
    (real : plan.request.dryRun = false) (keeps : plan.request.rollback = true)
    (conservative : plan.request.safety = .conservative)
    (executed : e.execute now plan cancelled = .ok (run, e₁))
    (aborts : Execution.Aborts e.collaborators (e.conditions now cancelled) plan e.freshBench) :
    let start := e.bench.settle.store
    run.status = .rolledBack ∧ e₁.bench.undo.stack plan.id = [] ∧
      ∀ q, ¬Backup.IsDestination policy.backupDir plan q →
        let kept := if start.denies q then none else oldestAt? q (e.bench.undo.stack plan.id)
        e₁.bench.settle.store.get? q = (kept.map (·.content)).getD (start.get? q) ∧
          (e₁.bench.settle.store.get? q = start.get? q ↔
            ∀ r, kept = some r → r.content = start.get? q) := by
  intro start
  have undoes : plan.request.undoesOnAbort = true := by
    simp [Request.undoesOnAbort, keeps, conservative]
  obtain ⟨status, stack, contents⟩ := get?_aborted own real undoes executed aborts
  refine ⟨status, stack, fun q spared => ?_⟩
  intro kept
  have restored : e₁.bench.settle.store.get? q = (kept.map (·.content)).getD (start.get? q) := by
    rw [contents q spared, Memory.get?_restoreAll]
    dsimp only [kept, start]
    split <;> rfl
  refine ⟨restored, ?_⟩
  rw [restored]
  cases kept with
  | none => simp
  | some r => simp

/-- A run that is aborted right behind a finished one takes the finished one back with it. -/
theorem aborted_rerun_restores_first_start (calm : ∀ m, (tests m).after = m)
    (own : e.collaborators = { Collaborators.standard policy tests with validator := v })
    (fresh : e.bench.undo.stack plan.id = []) (real : plan.request.dryRun = false)
    (keeps : plan.request.rollback = true) (conservative : plan.request.safety = .conservative)
    (executed : e.execute now plan cancelled = .ok (run, e₁)) (stands : run.status ≠ .rolledBack)
    (again : e₁.execute later plan cancelled' = .ok (run', e₂))
    (aborts : Execution.Aborts e₁.collaborators (e₁.conditions later cancelled') plan
      e₁.freshBench) :
    ∀ q, ¬Backup.IsDestination policy.backupDir plan q →
      e₂.bench.settle.store.get? q = e.bench.settle.store.get? q := by
  intro q spared
  have undoes : plan.request.undoesOnAbort = true := by
    simp [Request.undoesOnAbort, keeps, conservative]
  obtain ⟨-, -, restores⟩ := execute_restorable calm own fresh keeps executed stands
  have own₁ := (execute_collaborators executed).trans own
  obtain ⟨-, -, contents⟩ := get?_aborted own₁ real undoes again aborts
  rw [contents q spared, restores q spared]

/-- The second step fits the content that it was planned for on the first run only. -/
def firstRunOnly : Plan where
  id := "m"
  request := { source := "1", target := "2", move := .architectureRefactor, backup := false }
  steps := [
    { id := ⟨"1"⟩, kind := .fileOperation, path := ⟨"a.js"⟩, transformed := some "let a;" },
    { id := ⟨"2"⟩, kind := .codeTransformation, path := ⟨"b.js"⟩, original := some "var b;",
      transformed := some "let b;", risk := .high }]

def rerunEngine : Engine Memory where
  catalog := {}
  collaborators := Collaborators.standard {}
  settings := {}
  bench := {
    store := { files := [(⟨"a.js"⟩, "var a;"), (⟨"b.js"⟩, "var b;"), (⟨"c.js"⟩, "c")] } }

def ranOnce : Engine Memory := rerunEngine.after [.execute ⟨0, 0⟩ firstRunOnly fun _ _ => false]

theorem firstRun_taken_back :
    ∃ run e₁, ranOnce.execute ⟨1, 0⟩ firstRunOnly = .ok (run, e₁) ∧ run.status = .rolledBack ∧
      ranOnce.bench.settle.store.get? ⟨"b.js"⟩ = some "let b;" ∧
      e₁.bench.settle.store.get? ⟨"b.js"⟩ = some "var b;" ∧
      e₁.bench.settle.store.get? ⟨"c.js"⟩ = some "c" := by
  obtain ⟨run, e₁, executed⟩ : ∃ run e₁, ranOnce.execute ⟨1, 0⟩ firstRunOnly = .ok (run, e₁) :=
    ⟨_, _, rfl⟩
  have aborts : Execution.Aborts ranOnce.collaborators
      (ranOnce.conditions ⟨1, 0⟩ fun _ _ => false) firstRunOnly ranOnce.freshBench :=
    ⟨by decide, firstRunOnly.steps.take 1, _, [], rfl, by decide, Or.inr ⟨rfl, _, rfl⟩⟩
  obtain ⟨status, -, files⟩ := aborted_rerun_restores_kept_records {} (Collaborators.fixedTests {})
    Validator.builtin rfl rfl rfl rfl executed aborts
  refine ⟨run, e₁, executed, status, by decide, (files ⟨"b.js"⟩ (by decide)).1.trans (by decide),
    (files ⟨"c.js"⟩ (by decide)).1.trans (by decide)⟩

theorem cancelled_rerun_changes_more :
    ∃ run e₁, ranOnce.execute ⟨1, 0⟩ firstRunOnly (fun _ _ => true) = .ok (run, e₁) ∧
      run.status = .rolledBack ∧ (ranOnce.result? "m").map (·.status) = some .completed ∧
      ranOnce.isActive "m" = false ∧ ranOnce.bench.undo.hasRecords "m" = true ∧
      firstRunOnly.request.rollback = true ∧ firstRunOnly.request.safety = .conservative ∧
      ¬Backup.IsDestination ⟨".codemig/backups"⟩ firstRunOnly ⟨"a.js"⟩ ∧
      ranOnce.bench.settle.store.get? ⟨"a.js"⟩ = some "let a;" ∧
      e₁.bench.settle.store.get? ⟨"a.js"⟩ = some "var a;" := by
  refine ⟨_, _, rfl, ?_, ?_, ?_, ?_, rfl, rfl, ?_, ?_, ?_⟩ <;> decide

end Uplift.Engine
