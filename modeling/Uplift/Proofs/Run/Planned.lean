import Uplift.Pattern.Catalog
import Uplift.Proofs.Plan.Chain
import Uplift.Proofs.Run.CodeSteps
import Uplift.Proofs.Run.Ending

/-!
# Running what was planned

The steps that a plan has for a listed file end in the text that the patterns make of it, one
after the other (`contentBehind_planned`). A run that completes without a failed step has
gone through all of them, and so that text is what the file holds in the end.
-/

namespace Uplift

namespace Plan

variable {policy : RiskPolicy} {rewrites : List (Path × Rewrite)} {q : Path}

/-! ### What the steps of a plan write -/

theorem transformed_codeSteps (policy : RiskPolicy) (rewrites : List (Path × Rewrite))
    (q : Path) :
    ((codeSteps policy rewrites).filter (Step.writesAt q)).map (·.transformed) =
      (rewritesAt q rewrites).map (some ·.after) := by
  have own : (codeSteps policy rewrites).filter (Step.writesAt q) =
      (codeSteps policy rewrites).filter (·.path.same q) := by
    refine List.filter_congr fun s member => ?_
    rw [Step.writesAt, Step.writesFile, kind_of_codeStep member]
    rfl
  rw [own, ← List.forall₂_eq_eq_eq, List.forall₂_map_left_iff, List.forall₂_map_right_iff]
  exact ((renders_ofRewrite policy).at_path rewrites q).imp fun _ _ stands => stands.transformed

theorem auxiliarySteps_spare {r : Request} {policy : PlanningPolicy} {patterns : List Pattern}
    {listed : List Path} {code : List Step} (manifest : r.manifest.same q = false)
    (config : r.buildConfig.same q = false) {s : Step}
    (member : s ∈ auxiliarySteps r policy patterns listed code) : s.writesAt q = false := by
  obtain ⟨position, rfl | rfl | rfl⟩ := auxiliarySteps_cases member
  · exact manifest
  · exact config
  · -- without content a test update writes no file
    rfl

/-! ### What a plan would make of its files -/

theorem contentBehind_codeSteps {m : Memory} {patterns : List Pattern} {r : Request}
    {listed : List Path} (scanned : FileStore.list m r = .ok listed)
    (analysed : rewritesOf (Analysis.ofFiles m patterns listed) = .ok rewrites)
    (policy : RiskPolicy) (q : Path) :
    contentBehind (m.get? q) ((codeSteps policy rewrites).filter (Step.writesAt q)) =
      if listed.any (·.same q) then
        (m.get? q).map fun content => patterns.foldl (fun text p => (p.applyAll text).1) content
      else m.get? q := by
  rw [contentBehind, transformed_codeSteps, rewritesAt_ofFiles q analysed]
  by_cases among : listed.any (·.same q) = true
  · obtain ⟨path, member, same⟩ := List.any_eq_true.mp among
    obtain ⟨content, held⟩ := Memory.get?_of_listed scanned member
    rw [Memory.get?_congr m same] at held
    have times : listed.filter (·.same q) ≠ [] :=
      List.ne_nil_of_mem (List.mem_filter.mpr ⟨member, same⟩)
    rw [if_pos among, held, Analysis.getLastD_after]
    simp only [Option.map_some, Option.getD_some]
    rw [Analysis.lastText_repeated content _ times, (Analysis.rewritesOf_in_turn ..).1]
  · have never : listed.filter (·.same q) = [] :=
      List.filter_eq_nil_iff.mpr fun path member same =>
        among (List.any_eq_true.mpr ⟨path, member, same⟩)
    rw [if_neg among, never]
    rfl

/-- The steps of a plan leave at a listed path what the patterns make of its content, one
after the other, and they leave any other path alone. -/
theorem contentBehind_planned {id : String} {now : Timestamp} {settings : Settings} {m : Memory}
    {patterns : List Pattern} {r : Request} {plan : Plan} {listed : List Path}
    (built : build id now settings m patterns r = .ok plan)
    (scanned : FileStore.list m r = .ok listed) (q : Path) (manifest : r.manifest.same q = false)
    (config : r.buildConfig.same q = false) :
    (∀ s ∈ plan.steps, s.writesAt q = true → s.kind = .codeTransformation) ∧
      contentBehind (m.get? q) (plan.steps.filter (Step.writesAt q)) =
        if listed.any (·.same q) then
          (m.get? q).map fun content => patterns.foldl (fun text p => (p.applyAll text).1) content
        else m.get? q := by
  obtain ⟨listed', rewrites, scanned', analysed, rfl⟩ := build_ok built
  obtain rfl : listed = listed' := Except.ok.inj (scanned.symm.trans scanned')
  have spared : ∀ s ∈ auxiliarySteps r settings.planning patterns listed
      (codeSteps settings.risk rewrites), ¬s.writesAt q = true := fun s member =>
    Bool.eq_false_iff.mp (auxiliarySteps_spare manifest config member)
  refine ⟨fun s member writes => ?_, ?_⟩
  · rcases List.mem_append.mp member with code | auxiliary
    · exact kind_of_codeStep code
    · exact absurd writes (spared s auxiliary)
  · rw [ofSteps, List.filter_append, List.filter_eq_nil_iff.mpr spared, List.append_nil]
    exact contentBehind_codeSteps scanned analysed settings.risk q

end Plan

namespace Execution

/-! ### Runs that complete -/

theorem get?_behind_steps {policy : ExecutionPolicy} {tests : Call Memory TestReport}
    {v : Validator} {k : Conditions Memory} {plan : Plan} {b : Bench Memory} {q : Path}
    (real : plan.request.dryRun = false) :
    let c := { Collaborators.standard policy tests with validator := v }
    let p := attemptAll c k plan.steps (prepare c k plan b).2
    p.aborted = false → p.run.execution.failed = [] →
    (∀ s ∈ plan.steps, s.writesAt q = true → s.kind = .codeTransformation) →
    ¬Backup.IsDestination policy.backupDir plan q →
    p.bench.settle.store.get? q =
      contentBehind (b.settle.store.get? q) (plan.steps.filter (Step.writesAt q)) := by
  intro c p running clean code spared
  have stay : c.StayOnPath := Collaborators.standard_stayOnPath policy tests v
  have all := steps_of_completions running clean
  rw [attemptAll_contentBehind stay (prepare_runs c k plan b) real code, writersAt, all,
    get?_prepare tests v k spared]

/-- A run that completes without a failed step leaves at a path to which only code steps
write what the last step of the plan there leaves. -/
theorem completed_run_contents (policy : ExecutionPolicy) {tests : Call Memory TestReport}
    (calm : ∀ m, (tests m).after = m) (v : Validator) (k : Conditions Memory) (plan : Plan)
    (b : Bench Memory) (real : plan.request.dryRun = false) :
    let c := { Collaborators.standard policy tests with validator := v }
    let ended := run c k plan b
    ended.1.status = .completed → ended.1.execution.failed = [] →
    ∀ q, (∀ s ∈ plan.steps, s.writesAt q = true → s.kind = .codeTransformation) →
      ¬Backup.IsDestination policy.backupDir plan q →
      ended.2.settle.store.get? q =
        contentBehind (b.settle.store.get? q) (plan.steps.filter (Step.writesAt q)) := by
  intro c ended completed clean q code spared
  obtain ⟨running, failed, store⟩ := steps_of_completed (c := c) calm k plan b completed
  rw [store]
  exact get?_behind_steps real running (failed.symm.trans clean) code spared

/-- To run a plan without a failed step is to apply the patterns of the catalog: every listed
file ends as their passes over its planned content, one after the other, leave it, and every
other path stays as it is. The manifest, the build configuration and the place of the backup
are left out of this. -/
theorem planned_run_applies_patterns (policy : ExecutionPolicy)
    (tests : Call Memory TestReport) (calm : ∀ m, (tests m).after = m) (v : Validator)
    (settings : Settings) (catalog : Catalog) (r : Request) (real : r.dryRun = false)
    (k : Conditions Memory) (b : Bench Memory) (id : String) (now : Timestamp)
    {plan : Plan} {listed : List Path}
    (built : Plan.build id now settings b.settle.store catalog.all r = .ok plan)
    (scanned : FileStore.list b.settle.store r = .ok listed)
    (spared : ∀ path ∈ listed, ¬Backup.IsDestination policy.backupDir plan path) :
    let ended := run { Collaborators.standard policy tests with validator := v } k plan b
    ended.1.status = .completed → ended.1.execution.failed = [] →
    (∀ path ∈ listed, r.manifest.same path = false → r.buildConfig.same path = false →
      ∃ content, b.settle.store.get? path = some content ∧
        ended.2.settle.store.get? path =
          some (catalog.all.foldl (fun text p => (p.applyAll text).1) content)) ∧
    ∀ q, (∀ path ∈ listed, path.same q = false) → r.manifest.same q = false →
      r.buildConfig.same q = false → ¬Backup.IsDestination policy.backupDir plan q →
      ended.2.settle.store.get? q = b.settle.store.get? q := by
  intro ended completed clean
  have own : plan.request.dryRun = false := by rw [Plan.build_request built, real]
  have contents := completed_run_contents policy calm v k plan b own completed clean
  refine ⟨fun path member manifest config => ?_, fun q unlisted manifest config elsewhere => ?_⟩
  · obtain ⟨content, held⟩ := Memory.get?_of_listed scanned member
    obtain ⟨code, left⟩ := Plan.contentBehind_planned built scanned path manifest config
    have among : listed.any (·.same path) = true :=
      List.any_eq_true.mpr ⟨path, member, path.same_refl⟩
    rw [if_pos among, held] at left
    refine ⟨content, held, ?_⟩
    rw [contents path code (spared path member), held, left]
    rfl
  · obtain ⟨code, left⟩ := Plan.contentBehind_planned built scanned q manifest config
    have never : listed.any (·.same q) = false :=
      List.any_eq_false.mpr fun path member => Bool.eq_false_iff.mp (unlisted path member)
    rw [if_neg (Bool.eq_false_iff.mp never)] at left
    rw [contents q code elsewhere, left]

/-- Two patterns of which the second one goes on from what the first one leaves. -/
def declarations : Catalog where
  byId := [
    ("var", { id := "var", name := "var", category := .generalLanguage,
              matcher := .literal "var ", transform := .replace "let " }),
    ("let", { id := "let", name := "let", category := .generalLanguage,
              matcher := .literal "let ", transform := .template "const " })]
  order := ["var", "let"]

def declarationRequest : Request :=
  { source := "1", target := "2", move := .dependencyUpdate }

def declarationFiles : Bench Memory where
  store := { files := [(⟨"a.js"⟩, "var a; let b;"), (⟨"package.json"⟩, "\x7b\x7d")] }

def declarationPlan : Except EngineError Plan :=
  Plan.build "m" ⟨0, 0⟩ {} declarationFiles.settle.store declarations.all declarationRequest

theorem declarations_applied :
    ∃ plan, declarationPlan = .ok plan ∧
      let ended := run (Collaborators.standard {}) { deadline := 10 } plan declarationFiles
      ended.1.status = .completed ∧ ended.1.execution.failed = [] ∧
        ended.2.settle.store.get? ⟨"a.js"⟩ = some "const a; const b;" ∧
        ended.2.settle.store.get? ⟨"b.js"⟩ = none := by
  obtain ⟨plan, built⟩ : ∃ plan, declarationPlan = .ok plan := ⟨_, rfl⟩
  have scanned : FileStore.list declarationFiles.settle.store declarationRequest =
      .ok [⟨"a.js"⟩, ⟨"package.json"⟩] := rfl
  have facts : ∀ plan ∈ declarationPlan.toOption,
      let ended := run (Collaborators.standard {}) { deadline := 10 } plan declarationFiles
      (ended.1.status = .completed ∧ ended.1.execution.failed = []) ∧
        ∀ path ∈ [⟨"b.js"⟩, ⟨"a.js"⟩, ⟨"package.json"⟩],
          ¬Backup.IsDestination ⟨".codemig/backups"⟩ plan path := by
    decide +kernel
  obtain ⟨⟨completed, clean⟩, spared⟩ := facts plan (by rw [built]; rfl)
  obtain ⟨patterned, others⟩ := planned_run_applies_patterns {} (Collaborators.fixedTests {})
    (fun _ => rfl) Validator.builtin {} declarations declarationRequest rfl { deadline := 10 }
    declarationFiles "m" ⟨0, 0⟩ built scanned
    (fun path member => spared path (List.mem_cons_of_mem _ member)) completed clean
  obtain ⟨content, held, left⟩ := patterned ⟨"a.js"⟩ (by decide) (by decide) (by decide)
  obtain rfl : "var a; let b;" = content := Option.some.inj held
  refine ⟨plan, built, completed, clean, left.trans (by decide +kernel), ?_⟩
  exact others ⟨"b.js"⟩ (by decide) (by decide) (by decide) (spared _ (by decide))

end Execution

end Uplift
