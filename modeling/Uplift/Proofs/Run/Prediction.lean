import Uplift.Proofs.Plan.Chain
import Uplift.Proofs.Run.Bookkeeping
import Uplift.Proofs.Run.Planned

/-!
# A clean dry run predicts the real one

A dry run checks the rules of every step on the content that the step is to leave, and so
does a real run. The real run also compares what it finds with what the step was planned for,
and writes; in a plan of code steps the chains of contents see to it that nothing differs.
So if a dry run comes through without a failed step, then under calm conditions the real
one tries the same steps with the same outcomes (`tried_of_clean_checks`).
-/

namespace Uplift

variable {σ : Type}

structure Conditions.Calm (k : Conditions σ) : Prop where
  inTime : ∀ n, k.pace n ≤ k.deadline
  uncancelled : ∀ n store, k.cancelled n store = false

def Plan.withDryRun (dry : Bool) (p : Plan) : Plan :=
  { p with request := { p.request with dryRun := dry } }

def Step.rehearsal (v : Validator) (s : Step) : Trial := ⟨s, s.check v s.transformed⟩

structure Step.Clean (v : Validator) (s : Step) : Prop where
  code : s.kind = .codeTransformation
  given : ∃ text, s.transformed = some text
  passes : (s.rehearsal v).passed = true

/-! ### Calls under calm conditions -/

theorem Bench.result_call_of_calm {α : Type} {k : Conditions σ} (calm : k.Calm) {c : Call σ α}
    {b : Bench σ} (prompt : (c b.settle.store).elapsed = 0) :
    (b.call k c).1 = (c b.settle.store).result := by
  have inTime := calm.inTime b.settle.calls
  unfold call
  dsimp only
  rw [prompt, if_neg]
  omega

theorem Call.put_of_writable {m : Memory} {p : Path} (writable : m.denies p = false)
    (content : Option String) :
    (Call.put p content m).result = .ok () ∧ (Call.put p content m).elapsed = 0 := by
  simp only [Call.put, Call.change, Memory.put_eq, writable]
  exact ⟨rfl, rfl⟩

namespace Backup

theorem copyOne_of_writable {m : Memory} (writable : m.readOnly = []) (place path : Path) :
    ∃ m', copyOne place m path = .ok m' := by
  simp only [copyOne, Memory.read?_eq, bind, Except.bind]
  cases held : m.get? path with
  | none => exact ⟨m, rfl⟩
  | some content =>
    have free := Memory.denies_of_readOnly_nil writable (place.join path)
    have put := Memory.put_eq m (place.join path) (some content)
    rw [free, if_neg Bool.false_ne_true] at put
    exact ⟨_, put⟩

theorem copyAll_of_writable {m : Memory} (writable : m.readOnly = []) (place : Path)
    (paths : List Path) : (copyAll place m paths).1 = .ok () := by
  induction paths generalizing m with
  | nil => rfl
  | cons path rest ih =>
    obtain ⟨m', copied⟩ := copyOne_of_writable writable place path
    unfold copyAll
    rw [copied]
    exact ih ((copyOne_ok copied).1.trans writable)

theorem create_of_writable {m : Memory} (writable : m.readOnly = []) (dir : Path) (p : Plan) :
    ∃ place, (create dir p m).result = .ok place := by
  unfold create
  dsimp only
  rw [copyAll_of_writable writable]
  exact ⟨_, rfl⟩

end Backup

/-! ### Code steps under calm conditions -/

namespace Step

variable {c : Collaborators Memory} {k : Conditions Memory} {s : Step} {b : Bench Memory}
  {diagnostics : List Diagnostic}

theorem code_apply_of_calm (calm : k.Calm) (code : s.kind = .codeTransformation)
    (given : ∃ text, s.transformed = some text)
    (writable : b.settle.store.denies s.path = false)
    (checked : s.check c.validator s.transformed = .ok diagnostics) :
    ∃ after, s.apply c k b = (.ok diagnostics, after) ∧
      after.settle.store = b.settle.store.tryPut s.path s.transformed := by
  obtain ⟨text, given⟩ := given
  obtain ⟨result, prompt⟩ := Call.put_of_writable writable (some text)
  have made := Bench.result_call_of_calm calm prompt
  have store := Bench.store_settle_call k (Call.put s.path (some text)) b
  rw [result] at made
  rw [Call.after_put] at store
  refine ⟨(b.call k (.put s.path (some text))).2, ?_, given ▸ store⟩
  unfold apply action outcome isReadBack
  rw [code, given]
  rw [given] at checked
  rcases called : b.call k (.put s.path (some text)) with ⟨_, after⟩
  rw [called] at made
  obtain rfl : _ = Except.ok () := made
  simp [perform, called, checked]

theorem code_run_of_calm (id : String) (calm : k.Calm) (code : s.kind = .codeTransformation)
    (given : ∃ text, s.transformed = some text)
    (fits : b.settle.store.get? s.path = s.original)
    (writable : b.settle.store.denies s.path = false)
    (checked : s.check c.validator s.transformed = .ok diagnostics) :
    ∃ after, s.run c k id false b = (.ok diagnostics, after) ∧
      after.settle.store = b.settle.store.tryPut s.path s.transformed := by
  have made := Bench.result_call_of_calm calm (c := Call.readCurrent s.path) (b := b) rfl
  have store := Bench.store_settle_call k (Call.readCurrent s.path) b
  rw [Call.result_readCurrent, fits] at made
  rcases called : b.call k (Call.readCurrent s.path) with ⟨_, read⟩
  rw [called] at made store
  obtain rfl : _ = Except.ok s.original := made
  have same : read.settle.store = b.settle.store := store
  rw [← same] at writable ⊢
  have fresh : s.isStale s.original = false := by simp [isStale]
  obtain ⟨after, applied, left⟩ := code_apply_of_calm calm code given (c := c)
    (b := { read with undo := read.undo.push id ⟨s.id, s.path, s.original⟩ }) writable checked
  refine ⟨after, ?_, left⟩
  unfold run
  rw [if_neg Bool.false_ne_true, if_pos (writesFile_of_code code), called]
  dsimp only
  rw [fresh, if_neg Bool.false_ne_true]
  unfold runRecorded
  dsimp only
  rw [applied]

end Step

namespace Execution

/-! ### Trials of a dry run -/

section Rehearsals

variable [FileStore σ] {c : Collaborators σ} {k : Conditions σ} {p : Progress σ} {plan : Plan}
  {b : Bench σ}

theorem trials_dry (dry : p.run.plan.request.dryRun = true) (steps : List Step) :
    ∀ t ∈ trials c k p steps, t = t.step.rehearsal c.validator := by
  induction steps generalizing p with
  | nil => simp [trials]
  | cons s rest ih =>
    intro t member
    rw [trials] at member
    rcases List.mem_append.mp member with own | later
    · have own : trial? c k p s = some t := Option.mem_toList.mp own
      unfold trial? at own
      rw [dry] at own
      split at own
      · cases own
      · split at own
        · cases own
        · cases own
          rfl
    · have still : (attempt c k p s).run.plan.request.dryRun = true := by
        rw [(attempt_accounts c k p s).plan, dry]
      exact ih still t later

theorem tried_of_completed_dry (dry : plan.request.dryRun = true)
    (completed : (run c k plan b).1.status = .completed) :
    tried c k plan b = plan.steps.map (Step.rehearsal c.validator) := by
  obtain ⟨ready, calm⟩ := (run_status c k plan b).1.mp completed
  obtain ⟨calm, uncancelled⟩ := isStopped_eq_false.mp calm
  have course := run_course c k plan b
  rw [stepsBegun_of_ready ready] at course
  have own : (prepare c k plan b).2.run.plan.request.dryRun = true := by
    rw [(prepare_runs c k plan b).plan, dry]
  rw [← course.complete calm uncancelled, List.map_map]
  refine (List.map_id _).symm.trans (List.map_congr_left fun t member => ?_)
  exact trials_dry own _ t member

end Rehearsals

/-! ### Trials of a real run -/

section Runs

variable {c : Collaborators Memory} {k : Conditions Memory} {p : Progress Memory} {s : Step}
  {plan : Plan} {b : Bench Memory}

theorem attempt_of_calm (calm : k.Calm) (runs : p.Runs plan) (real : plan.request.dryRun = false)
    (running : p.aborted = false) (writable : p.bench.settle.store.readOnly = [])
    (fits : p.bench.settle.store.get? s.path = s.original) (clean : s.Clean c.validator) :
    trial? c k p s = some (s.rehearsal c.validator) ∧ interruption? k p s = none ∧
      (attempt c k p s).aborted = false ∧
      (attempt c k p s).bench.settle.store =
        p.bench.settle.store.tryPut s.path s.transformed := by
  have free := Memory.denies_of_readOnly_nil writable s.path
  have passes := clean.passes
  unfold Step.rehearsal at passes ⊢
  cases checked : s.check c.validator s.transformed with
  | error e =>
    rw [checked] at passes
    cases passes
  | ok diagnostics =>
    obtain ⟨after, ran, left⟩ :=
      Step.code_run_of_calm plan.id calm clean.code clean.given fits free checked
    have accounts := attempt_accounts c k p s
    have stopped := accounts.aborted
    unfold trial? interruption? attempt at *
    rw [running, calm.uncancelled, runs.id, runs.plan, real, ran] at *
    simp only [Bool.false_eq_true, if_false] at stopped ⊢
    exact ⟨trivial, trivial, stopped,
      (congrArg (·.settle.store) (passed_booked k s diagnostics _).bench).trans left⟩

theorem trials_of_chained (calm : k.Calm) (real : plan.request.dryRun = false)
    {steps : List Step} (runs : p.Runs plan) (running : p.aborted = false)
    (writable : p.bench.settle.store.readOnly = [])
    (chained : Chained p.bench.settle.store.get? steps)
    (clean : ∀ s ∈ steps, s.Clean c.validator) :
    trials c k p steps = steps.map (Step.rehearsal c.validator) ∧
      interrupted? c k p steps = none := by
  induction steps generalizing p with
  | nil => exact ⟨rfl, rfl⟩
  | cons s rest ih =>
    obtain ⟨trial, uncancelled, goesOn, store⟩ := attempt_of_calm calm runs real running writable
      chained.1 (clean s List.mem_cons_self)
    have free := Memory.denies_of_readOnly_nil writable s.path
    have contents : (attempt c k p s).bench.settle.store.get? =
        s.contentAfter p.bench.settle.store.get? := by
      funext q
      rw [store, Memory.get?_tryPut, Step.contentAfter]
      simp [free]
    obtain ⟨later, undisturbed⟩ := ih (attempt_runs runs s) goesOn
      (by rw [store, Memory.readOnly_tryPut, writable]) (contents ▸ chained.2)
      fun t member => clean t (List.mem_cons_of_mem _ member)
    rw [trials, interrupted?, trial, uncancelled, later, undisturbed]
    exact ⟨rfl, rfl⟩

theorem backup_of_calm (policy : ExecutionPolicy) (tests : Call Memory TestReport)
    (v : Validator) (plan : Plan) (calm : k.Calm) (writable : b.settle.store.readOnly = []) :
    backupError? { Collaborators.standard policy tests with validator := v } k plan b = none := by
  obtain ⟨store, -⟩ := measure_effect k plan.risk.backups b
  obtain ⟨place, made⟩ := Backup.create_of_writable writable policy.backupDir plan
  have started : (start k plan b).bench.settle.store = b.settle.store := store
  have called := Bench.result_call_of_calm calm (c := Backup.create policy.backupDir plan)
    (b := (start k plan b).bench) rfl
  rw [started, made] at called
  unfold backupError?
  rw [show (Collaborators.standard policy tests).backup plan = Backup.create policy.backupDir plan
    from rfl, called, ite_self]

/-- A plan whose steps form chains and pass their checks is gone through as its dry run is. -/
theorem tried_of_clean_checks (policy : ExecutionPolicy) (tests : Call Memory TestReport)
    (v : Validator) (plan : Plan) (b : Bench Memory) (calm : k.Calm)
    (real : plan.request.dryRun = false) (writable : b.settle.store.readOnly = [])
    (chained : Chained b.settle.store.get? plan.steps)
    (spared : ∀ s ∈ plan.steps, ¬Backup.IsDestination policy.backupDir plan s.path)
    (clean : ∀ s ∈ plan.steps, s.Clean v) :
    let c := { Collaborators.standard policy tests with validator := v }
    backupError? c k plan b = none ∧ tried c k plan b = plan.steps.map (Step.rehearsal v) ∧
      cancelledBefore? c k plan b = none := by
  intro c
  have ready := backup_of_calm policy tests v plan calm writable
  have free := (readOnly_prepare policy tests v k plan b).trans writable
  have planned : Chained (prepare c k plan b).2.bench.settle.store.get? plan.steps :=
    chained.congr fun s member => get?_prepare tests v k (spared s member)
  have gone := trials_of_chained (c := c) calm real (prepare_runs c k plan b)
    (prepare_steps c k plan b).2.2 free planned clean
  refine ⟨ready, ?_⟩
  unfold tried cancelledBefore?
  rw [stepsBegun_of_ready ready]
  exact gone

theorem store_of_untested (c : Collaborators Memory) (k : Conditions Memory) (b : Bench Memory)
    (untested : plan.request.includeTests = false)
    (completed : (run c k plan b).1.status = .completed) :
    let p := attemptAll c k plan.steps (prepare c k plan b).2
    p.aborted = false ∧ (run c k plan b).2.settle.store = p.bench.settle.store := by
  obtain ⟨ready, calm⟩ := (run_status c k plan b).1.mp completed
  have begun := stepsBegun_of_ready ready
  have running := (run_accounts c k plan b).aborted
  rw [between_all, begun, (prepare_steps c k plan b).2.2, Bool.false_or] at running
  have running := running.trans calm
  refine ⟨running, ?_⟩
  have runs := attemptAll_runs (c := c) (k := k) (prepare_runs c k plan b) plan.steps
  rw [run_eq, prepare_of_ready ready, between_all, begun]
  dsimp only
  generalize attemptAll c k plan.steps (prepare c k plan b).2 = p at running runs
  have concluded : (conclude c k p).bench = p.bench := by
    unfold conclude
    simp [running, runs.plan, untested, Progress.become]
  rw [if_pos rfl, (finish_effect k _).2.1]
  exact (measure_effect k _ _).1.trans (by rw [concluded])

/-- What a completed run without tests or failed steps leaves at the path of a code step that no
later one writes to. -/
theorem get?_of_last_step {policy : ExecutionPolicy} {tests : Call Memory TestReport}
    {v : Validator} (plan : Plan) (real : plan.request.dryRun = false)
    (untested : plan.request.includeTests = false)
    (code : ∀ s ∈ plan.steps, s.kind = .codeTransformation) {done rest : List Step}
    (parts : plan.steps = done ++ s :: rest)
    (last : ∀ later ∈ rest, later.path.same s.path = false)
    (spared : ¬Backup.IsDestination policy.backupDir plan s.path) :
    let ended := run { Collaborators.standard policy tests with validator := v } k plan b
    ended.1.status = .completed → ended.1.execution.failed = [] →
      ended.2.settle.store.get? s.path = s.transformed := by
  intro ended completed clean
  obtain ⟨running, store⟩ := store_of_untested
    { Collaborators.standard policy tests with validator := v } k b untested completed
  obtain ⟨ready, -⟩ := (run_status _ k plan b).1.mp completed
  obtain ⟨same, -⟩ := run_ending { Collaborators.standard policy tests with validator := v } k
    plan b
  rw [between_all, stepsBegun_of_ready ready] at same
  have own : s.writesAt s.path = true := by
    simp [Step.writesAt, s.path.same_refl,
      Step.writesFile_of_code (code s (by simp [parts]))]
  have others : rest.filter (Step.writesAt s.path) = [] :=
    List.filter_eq_nil_iff.mpr fun later member => by simp [Step.writesAt, last later member]
  rw [store, get?_behind_steps real running (same.failed.symm.trans clean)
    (fun s member _ => code s member) spared, parts, List.filter_append, List.filter_cons,
    if_pos own, others, contentBehind_concat]

end Runs

section Reports

variable {c c' : Collaborators Memory} {k k' : Conditions Memory} {plan plan' : Plan}
  {b b' : Bench Memory}

theorem completed_of_passed (ready : backupError? c k plan b = none)
    (uncancelled : cancelledBefore? c k plan b = none)
    (passes : ∀ t ∈ tried c k plan b, t.passed = true) :
    (run c k plan b).1.status = .completed ∧ (run c k plan b).1.execution.failed = [] := by
  constructor
  · refine (run_status c k plan b).1.mpr ⟨ready, isStopped_eq_false.mpr ⟨fun t member => ?_,
      uncancelled⟩⟩
    simp [Trial.aborts, passes t member]
  · rw [(run_lists c k plan b).2, List.map_eq_nil_iff, List.filter_eq_nil_iff]
    exact fun t member => by simp [passes t member]

theorem report_of_same_trials (steps : plan'.steps = plan.steps)
    (untested : plan.request.includeTests = false)
    (untested' : plan'.request.includeTests = false)
    (same : tried c' k' plan' b' = tried c k plan b) :
    let ended := (run c k plan b).1
    let ended' := (run c' k' plan' b').1
    ended'.execution.completed = ended.execution.completed ∧
      ended'.execution.warnings = ended.execution.warnings ∧
      ended'.artifacts.diff = ended.artifacts.diff := by
  have completed : (run c' k' plan' b').1.execution.completed =
      (run c k plan b).1.execution.completed := by
    rw [(run_lists c' k' plan' b').1, (run_lists c k plan b).1, same]
  refine ⟨completed, ?_, ?_⟩
  · rw [run_warnings c' k' b' untested', run_warnings c k b untested, same]
  · rw [run_diff, run_diff, completed]
    unfold diffOf Plan.step?
    rw [steps]

end Reports

/-- If the dry run of a plan of code steps completes without a failed step, then under calm
conditions so does the real run, on the store that the plan was built from: it completes the
same steps with the same warnings and the same diff, and each file ends with the transformed
content of its last step. -/
theorem clean_dry_run_predicts_run (policy : ExecutionPolicy) (tests : Call Memory TestReport)
    (v : Validator) (settings : Settings) (patterns : List Pattern) (r : Request) (id : String)
    (now : Timestamp) {m : Memory} (ascending : m.files.Ascending) {plan : Plan}
    (built : Plan.build id now settings m patterns r = .ok plan)
    (code : ∀ s ∈ plan.steps, s.kind = .codeTransformation)
    {c₀ : Collaborators Memory} (checks : c₀.validator = v) (k₀ : Conditions Memory)
    (b₀ : Bench Memory) (k : Conditions Memory) (calm : k.Calm) (b : Bench Memory)
    (unchanged : m.Agrees b.settle.store) (writable : m.readOnly = [])
    (spared : ∀ path ∈ m.files.map (·.1), ¬Backup.IsDestination policy.backupDir plan path) :
    let dry := (run c₀ k₀ (plan.withDryRun true) b₀).1
    let real := run { Collaborators.standard policy tests with validator := v } k
      (plan.withDryRun false) b
    dry.status = .completed → dry.execution.failed = [] →
      (real.1.status = .completed ∧ real.1.execution.failed = []) ∧
        (real.1.execution.completed = dry.execution.completed ∧
          real.1.execution.warnings = dry.execution.warnings ∧
          real.1.artifacts.diff = dry.artifacts.diff) ∧
        ∀ done s rest, plan.steps = done ++ s :: rest →
          (∀ later ∈ rest, later.path.same s.path = false) →
          ∃ text, s.transformed = some text ∧ real.2.settle.store.get? s.path = some text := by
  intro dry real completed cleanly
  obtain ⟨-, -, -, -, -, untested⟩ := Plan.steps_of_code built code
  have planned (s : Step) (member : s ∈ plan.steps) := Plan.step_of_code built code member
  have rehearsed : tried c₀ k₀ (plan.withDryRun true) b₀ =
      plan.steps.map (Step.rehearsal v) := by
    rw [tried_of_completed_dry rfl completed, checks]
    rfl
  have passes : ∀ t ∈ plan.steps.map (Step.rehearsal v), t.passed = true := by
    have noneFailed := (run_lists c₀ k₀ (plan.withDryRun true) b₀).2.symm.trans cleanly
    rw [rehearsed, List.map_eq_nil_iff, List.filter_eq_nil_iff] at noneFailed
    simpa using noneFailed
  have clean : ∀ s ∈ plan.steps, s.Clean v := fun s member =>
    ⟨code s member, (planned s member).2, passes _ (List.mem_map_of_mem member)⟩
  -- the real run tries the same steps, and the same comes of them
  have chained : Chained b.settle.store.get? plan.steps :=
    (Plan.chained_planned ascending built code).congr fun s _ => unchanged.contents s.path
  obtain ⟨ready, gone, uncancelled⟩ := tried_of_clean_checks policy tests v
    (plan.withDryRun false) b calm rfl (unchanged.readOnly.trans writable) chained
    (fun s member => spared _ (planned s member).1) clean
  obtain ⟨ends, failed⟩ := completed_of_passed ready uncancelled (gone ▸ passes)
  refine ⟨⟨ends, failed⟩, ?_, fun done s rest parts last => ?_⟩
  · exact report_of_same_trials rfl untested untested (gone.trans rehearsed.symm)
  · have member : s ∈ plan.steps := by simp [parts]
    obtain ⟨stored, text, given⟩ := planned s member
    refine ⟨text, given, given ▸ ?_⟩
    exact get?_of_last_step (plan.withDryRun false) rfl untested code parts last
      (spared _ stored) ends failed

/-- Two files, of which the second one is rewritten by both patterns. -/
def refactorFiles : Bench Memory where
  store := { files := .ofList [(⟨"b.js"⟩, "var b; let c;"), (⟨"a.js"⟩, "let a;")] }

def refactorRequest : Request := { source := "1", target := "2", move := .architectureRefactor }

def refactorPlan : Except EngineError Plan :=
  Plan.build "m" ⟨0, 0⟩ {} refactorFiles.settle.store declarations.all refactorRequest

theorem refactoring_predicted :
    ∃ plan, refactorPlan = .ok plan ∧
      let c := Collaborators.standard {}
      let dry := (run c { deadline := 10 } (plan.withDryRun true) refactorFiles).1
      let real := run c { deadline := 10 } (plan.withDryRun false) refactorFiles
      dry.status = .completed ∧ dry.execution.failed = [] ∧ dry.execution.completed.length = 4 ∧
        real.1.status = .completed ∧ real.1.execution.failed = [] ∧
        real.1.execution.completed = dry.execution.completed ∧
        real.1.artifacts.diff = dry.artifacts.diff ∧
        real.2.settle.store.get? ⟨"b.js"⟩ = some "const b; const c;" := by
  obtain ⟨plan, built⟩ : ∃ plan, refactorPlan = .ok plan := ⟨_, rfl⟩
  have facts : ∀ plan ∈ refactorPlan.toOption,
      let dry := (run (Collaborators.standard {}) { deadline := 10 } (plan.withDryRun true)
        refactorFiles).1
      ((∀ s ∈ plan.steps, s.kind = .codeTransformation) ∧
          ∀ path ∈ refactorFiles.settle.store.files.map (·.1),
            ¬Backup.IsDestination ⟨".codemig/backups"⟩ plan path) ∧
        (dry.status = .completed ∧ dry.execution.failed = [] ∧
          dry.execution.completed.length = 4) ∧
        plan.steps.getLast?.map (fun s => (s.path, s.transformed)) =
          some (⟨"b.js"⟩, some "const b; const c;") := by
    decide +kernel
  obtain ⟨⟨code, spared⟩, ⟨completed, clean, four⟩, last⟩ := facts plan (by rw [built]; rfl)
  obtain ⟨⟨ends, failed⟩, ⟨same, -, diff⟩, contents⟩ := clean_dry_run_predicts_run {}
    (Collaborators.fixedTests {}) Validator.builtin {} declarations.all refactorRequest "m" ⟨0, 0⟩
    (Files.ascending_ofList _) built code rfl { deadline := 10 } refactorFiles { deadline := 10 }
    ⟨fun _ => Nat.zero_le _, fun _ _ => rfl⟩ refactorFiles (.refl _) rfl spared completed clean
  refine ⟨plan, built, completed, clean, four, ends, failed, same, diff, ?_⟩
  obtain ⟨s, final, facts⟩ := Option.map_eq_some_iff.mp last
  obtain ⟨path, leaves⟩ := Prod.mk.inj facts
  obtain ⟨done, parts⟩ := List.getLast?_eq_some_iff.mp final
  obtain ⟨text, given, left⟩ := contents done s [] parts (by simp)
  rw [← path, ← leaves, given]
  exact left

end Execution

end Uplift
