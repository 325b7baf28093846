import Uplift.Proofs.Run.Atomicity
import Uplift.Proofs.Run.Backup
import Uplift.Proofs.Run.Completion

/-!
# Code steps meet the content they were planned for

A code step comes through only if its file holds the content that it was planned for, and
it leaves its transformed content there (`code_run_exact`). A path that is changed by code
steps alone therefore holds what the last completed one left (`attemptAll_contentBehind`).
-/

namespace Uplift

variable {c : Collaborators Memory} {k : Conditions Memory} {id : String} {s : Step}
  {b : Bench Memory}

/-! ### One code step -/

namespace Step

theorem writesFile_of_code (code : s.kind = .codeTransformation) : s.writesFile = true := by
  unfold writesFile
  rw [code]

/-- A code step that comes through found the content that it was planned for, and its
transformed content is there afterwards. -/
theorem code_run_exact (code : s.kind = .codeTransformation) {diagnostics : List Diagnostic}
    {after : Bench Memory} (ran : s.run c k id false b = (.ok diagnostics, after)) :
    b.settle.store.get? s.path = s.original ∧ s.transformed.isSome = true ∧
      after.settle.store.get? s.path = s.transformed := by
  obtain ⟨written, content, ⟨-, current, read, call, found, fresh, acts, done⟩, left, -⟩ :=
    wrote_of_passed (writesFile_of_code code) ran
  have stored := Bench.result_of_call_ok found
  rw [Call.result_readCurrent] at stored
  obtain rfl := Except.ok.inj stored
  refine ⟨by simpa [isStale, code] using fresh, ?_⟩
  have same : written = after := by
    rw [outcome, isReadBack, code] at left
    exact congrArg Prod.snd left
  rw [action, code] at acts
  cases given : s.transformed with
  | none =>
    rw [given] at acts
    cases acts
  | some text =>
    rw [given] at acts
    cases acts
    rw [← same]
    exact ⟨rfl, Memory.get?_of_put (Call.put_of_call_ok done)⟩

end Step

/-! ### The content of a path -/

def Step.writesAt (q : Path) (s : Step) : Bool := s.writesFile && s.path.same q

def contentBehind (start : Option String) (steps : List Step) : Option String :=
  (steps.map (·.transformed)).getLastD start

theorem contentBehind_concat (start : Option String) (steps : List Step) (s : Step) :
    contentBehind start (steps ++ [s]) = s.transformed := by
  rw [contentBehind, List.map_append]
  exact List.getLastD_concat ..

/-- The code step found the content that it was planned for and left its transformed one. -/
structure Completion.MetItsContent (done : Completion Memory) : Prop where
  found : done.before.settle.store.get? done.step.path = done.step.original
  given : done.step.transformed.isSome = true
  left : done.after.settle.store.get? done.step.path = done.step.transformed

namespace Execution

variable {plan : Plan} {p : Progress Memory} {done : List (Completion Memory)}

def writersAt (q : Path) (done : List (Completion Memory)) : List Step :=
  (done.map (·.step)).filter (Step.writesAt q)

theorem writersAt_append (q : Path) (done more : List (Completion Memory)) :
    writersAt q (done ++ more) = writersAt q done ++ writersAt q more := by
  unfold writersAt
  rw [List.map_append, List.filter_append]

theorem attempt_metItsContent (real : p.run.plan.request.dryRun = false)
    {new : Completion Memory} (came : completion? c k p s = some new)
    (code : new.step.kind = .codeTransformation) : new.MetItsContent := by
  have outcome := attempt_cases c k p s
  rw [came] at outcome
  generalize attempt c k p s = p' at outcome
  cases outcome with
  | through _ ran =>
    rw [real] at ran
    obtain ⟨found, given, left⟩ := Step.code_run_exact code ran
    exact ⟨found, given, left⟩

theorem get?_of_through {diagnostics : List Diagnostic} {after : Bench Memory} {q : Path}
    (stay : c.StayOnPath) (ran : s.run c k id false b = (.ok diagnostics, after))
    (elsewhere : s.writesAt q = false) :
    after.settle.store.get? q = b.settle.store.get? q := by
  have atomic := Step.attempted_step_atomic stay k id s b
  rw [ran] at atomic
  have recorded : Step.Recorded id s b after := atomic
  unfold Step.writesAt at elsewhere
  cases writes : s.writesFile with
  | false => exact (recorded.idle writes).contents q
  | true =>
    rw [writes, Bool.true_and] at elsewhere
    have other : q.same s.path = false := by
      rw [Bool.eq_false_iff] at elsewhere ⊢
      exact fun same => elsewhere (Path.same_symm same)
    exact recorded.change.elsewhere q other

theorem attempt_contentBehind (stay : c.StayOnPath) (real : p.run.plan.request.dryRun = false)
    {q : Path} {start : Option String}
    (code : s.writesAt q = true → s.kind = .codeTransformation)
    (now : p.bench.settle.store.get? q = contentBehind start (writersAt q done)) :
    (attempt c k p s).bench.settle.store.get? q =
      contentBehind start (writersAt q (done ++ (completion? c k p s).toList)) := by
  have outcome := attempt_cases c k p s
  generalize completion? c k p s = new at outcome
  generalize attempt c k p s = p' at outcome
  cases outcome with
  | skipped =>
    rw [Option.toList_none, List.append_nil]
    exact now
  | cancelled =>
    rw [Option.toList_none, List.append_nil]
    exact now
  | @through diagnostics after _ ran =>
    rw [real] at ran
    rw [(passed_booked k s diagnostics { p with bench := after }).bench, Option.toList_some,
      writersAt_append]
    cases writes : s.writesAt q with
    | false =>
      have idle : writersAt q [⟨s, p.bench, after⟩] = [] := by simp [writersAt, writes]
      rw [idle, List.append_nil, get?_of_through stay ran writes, now]
    | true =>
      have one : writersAt q [⟨s, p.bench, after⟩] = [s] := by simp [writersAt, writes]
      have same : q.same s.path = true :=
        Path.same_symm (Bool.and_eq_true_iff.mp writes).2
      rw [one, contentBehind_concat, Memory.get?_congr _ same]
      exact (Step.code_run_exact (code writes) ran).2.2
  | @failed e after _ ran =>
    have atomic := Step.attempted_step_atomic stay k p.run.id s p.bench
    rw [real] at ran
    rw [ran] at atomic
    -- a failed step has put back what it found
    have undisturbed : p.bench.Undisturbed after := atomic
    rw [(stumbled_booked k s e { p with bench := after }).bench, Option.toList_none,
      List.append_nil, ← now]
    exact undisturbed.files.contents q

/-! ### Code steps in a row -/

theorem completions_metTheirContent (runs : p.Runs plan) (real : plan.request.dryRun = false)
    (steps : List Step) :
    ∀ done ∈ completions c k p steps,
      done.step.kind = .codeTransformation → done.MetItsContent := by
  refine (attemptAll_invariant (fun done p => p.Runs plan ∧
    ∀ one ∈ done, one.step.kind = .codeTransformation → one.MetItsContent) ?_ ⟨runs, by simp⟩).2
  rintro done p s - ⟨runs, met⟩
  refine ⟨attempt_runs runs s, fun one member code => ?_⟩
  rcases List.mem_append.mp member with before | new
  · exact met one before code
  · exact attempt_metItsContent (runs.plan.symm ▸ real) (Option.mem_toList.mp new) code

/-- A path to which only code steps write holds what the last completed one of them left. -/
theorem attemptAll_contentBehind (stay : c.StayOnPath) (runs : p.Runs plan)
    (real : plan.request.dryRun = false) {steps : List Step} {q : Path}
    (code : ∀ s ∈ steps, s.writesAt q = true → s.kind = .codeTransformation) :
    (attemptAll c k steps p).bench.settle.store.get? q =
      contentBehind (p.bench.settle.store.get? q) (writersAt q (completions c k p steps)) := by
  refine (attemptAll_invariant (fun done p' => p'.Runs plan ∧
    p'.bench.settle.store.get? q =
      contentBehind (p.bench.settle.store.get? q) (writersAt q done)) ?_ ⟨runs, rfl⟩).2
  rintro done p' s member ⟨runs, now⟩
  exact ⟨attempt_runs runs s,
    attempt_contentBehind stay (runs.plan.symm ▸ real) (code s member) now⟩

theorem step_mem_of_completion (p : Progress Memory) (steps : List Step) :
    ∀ done ∈ completions c k p steps, done.step ∈ steps := by
  refine attemptAll_invariant (fun done _ => ∀ one ∈ done, one.step ∈ steps) ?_ (by simp)
  intro done p s listed among one member
  rcases List.mem_append.mp member with before | new
  · exact among one before
  · have came : completion? c k p s = some one := Option.mem_toList.mp new
    have outcome := attempt_cases c k p s
    rw [came] at outcome
    generalize attempt c k p s = p' at outcome
    cases outcome with
    | through => exact listed

/-! ### Between two steps of a run -/

theorem mem_of_stepsBegun {n : Nat} {b : Bench Memory}
    (member : s ∈ (stepsBegun c k plan b).take n) : s ∈ plan.steps := by
  have begun := List.mem_of_mem_take member
  unfold stepsBegun at begun
  split at begun
  · exact begun
  · cases begun

/-- No code step is applied to content that it was not planned for: each completed one found
its original content and left its transformed one. Between any two steps, a path whose steps
are code steps holds what the last completed one left there, or what it held at the start. -/
theorem code_steps_apply_to_planned_content (policy : ExecutionPolicy)
    (tests : Call Memory TestReport) (v : Validator) (k : Conditions Memory) (plan : Plan)
    (b : Bench Memory) (real : plan.request.dryRun = false) (n : Nat) :
    let c := { Collaborators.standard policy tests with validator := v }
    let done := completedBy c k plan b n
    (between c k plan b n).run.execution.completed = done.map (·.step.id) ∧
      (∀ one ∈ done, one.step.kind = .codeTransformation → one.MetItsContent) ∧
      ∀ q, (∀ s ∈ plan.steps, s.path.same q = true → s.kind = .codeTransformation) →
        ¬Backup.IsDestination policy.backupDir plan q →
        (between c k plan b n).bench.settle.store.get? q =
          contentBehind (b.settle.store.get? q) ((done.map (·.step)).filter (·.path.same q)) := by
  intro c done
  have stay : c.StayOnPath := Collaborators.standard_stayOnPath policy tests v
  have runs := prepare_runs c k plan b
  refine ⟨between_completed c k plan b n, completions_metTheirContent runs real _,
    fun q code spared => ?_⟩
  have writers : (done.map (·.step)).filter (·.path.same q) = writersAt q done := by
    refine List.filter_congr fun s member => ?_
    obtain ⟨one, among, rfl⟩ := List.mem_map.mp member
    have planned := mem_of_stepsBegun (step_mem_of_completion _ _ one among)
    cases same : one.step.path.same q with
    | false => simp [Step.writesAt, same]
    | true => simp [Step.writesAt, same, Step.writesFile_of_code (code _ planned same)]
  have start : (prepare c k plan b).2.bench.settle.store.get? q = b.settle.store.get? q :=
    get?_prepare tests v k spared
  rw [writers, ← start]
  refine attemptAll_contentBehind stay runs real fun s member writes => ?_
  exact code s (mem_of_stepsBegun member) (Bool.and_eq_true_iff.mp writes).2

/-- The second step meets other content than it was planned for and is passed over, the
third one goes on from where the first one ended. -/
def skippedStep : Plan where
  id := "m"
  request := { source := "1", target := "2" }
  risk := { backups := [⟨"a.js"⟩, ⟨"b.js"⟩] }
  steps := [
    { id := ⟨"1"⟩, kind := .codeTransformation, path := ⟨"a.js"⟩, original := some "var a;",
      transformed := some "let a;" },
    { id := ⟨"2"⟩, kind := .codeTransformation, path := ⟨"a.js"⟩, original := some "b",
      transformed := some "c" },
    { id := ⟨"3"⟩, kind := .fileOperation, path := ⟨"b.js"⟩ },
    { id := ⟨"4"⟩, kind := .codeTransformation, path := ⟨"./a.js"⟩, original := none,
      transformed := some "d" },
    { id := ⟨"5"⟩, kind := .codeTransformation, path := ⟨"a.js"⟩, original := some "let a;",
      transformed := some "const a;" }]

theorem skippedStep_contents :
    let c := Collaborators.standard {}
    let start : Bench Memory := { store := { files := [(⟨"a.js"⟩, "var a;"), (⟨"b.js"⟩, "b")] } }
    skippedStep.request.dryRun = false ∧
      (completedBy c { deadline := 10 } skippedStep start 5).map (·.step.id.text) =
        ["1", "3", "4", "5"] ∧
      (between c { deadline := 10 } skippedStep start 4).bench.settle.store.get? ⟨"a.js"⟩ =
        some "let a;" ∧
      (between c { deadline := 10 } skippedStep start 5).bench.settle.store.get? ⟨"a.js"⟩ =
        some "const a;" ∧
      ∀ one ∈ completedBy c { deadline := 10 } skippedStep start 5,
        one.step.kind = .codeTransformation → one.MetItsContent := by
  intro c start
  have applied (n : Nat) := code_steps_apply_to_planned_content {} (Collaborators.fixedTests {})
    Validator.builtin { deadline := 10 } skippedStep start rfl n
  have contents (n : Nat) := (applied n).2.2 ⟨"a.js"⟩ (by decide) (by decide)
  refine ⟨rfl, by decide, (contents 4).trans ?_, (contents 5).trans ?_, (applied 5).2.1⟩
  · decide
  · decide

end Execution

end Uplift
