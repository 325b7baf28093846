import Uplift.Proofs.Collaborator.Manifest
import Uplift.Proofs.Run.Planned
import Uplift.Proofs.Run.Validation

/-!
# Needed packages end up in the manifest

The manifest step of a plan needs all that the patterns with a step declare
(`manifestStep_of_built`). When it comes through, the manifest that it leaves was read back and
lists these packages (`run_lists`), and no later step writes to the manifest again.
-/

namespace Uplift

/-! ### The manifest step of a plan -/

namespace Plan

theorem neededPackages_of_used {steps : List Step} {patterns : List Pattern} {p : Pattern}
    (member : p ∈ patterns) (used : ∃ s ∈ steps, s.pattern = some p.id) {declared : String}
    (declares : declared ∈ p.dependencies) : declared ∈ neededPackages steps patterns := by
  unfold neededPackages
  have counted : p.id ∈ steps.filterMap (·.pattern) := List.mem_filterMap.mpr used
  rw [mem_sortedSet, List.mem_flatMap]
  exact ⟨p, List.mem_filter.mpr ⟨member, decide_eq_true counted⟩, declares⟩

/-- If the kind of move touches the manifest, then the manifest step stands first behind the code
steps, and no step behind it writes to the manifest. -/
theorem auxiliarySteps_manifest {r : Request} (moves : r.move.touchesManifest = true)
    (apart : r.manifest.same r.buildConfig = false) (policy : PlanningPolicy)
    (patterns : List Pattern) (listed : List Path) (code : List Step) :
    ∃ rest, auxiliarySteps r policy patterns listed code =
        manifestStep r policy.dependencyUpdate (neededPackages code patterns) code.length ::
          rest ∧ ∀ s ∈ rest, s.writesAt r.manifest = false := by
  unfold auxiliarySteps
  dsimp only
  rw [if_pos moves, List.append_assoc, List.singleton_append, List.mapIdx_cons]
  refine ⟨_, rfl, fun s member => ?_⟩
  obtain ⟨i, bound, rfl⟩ := List.mem_mapIdx.mp member
  generalize chosen : (_ : List (Nat → Step))[i] = step
  have among := List.getElem_mem bound
  rw [chosen] at among
  rcases List.mem_append.mp among with configs | tests
  · split at configs
    · rw [List.mem_singleton.mp configs]
      exact Bool.eq_false_iff.mpr fun same =>
        Bool.eq_false_iff.mp apart (Path.same_symm same)
    · cases configs
  · split at tests
    · rw [List.mem_singleton.mp tests]
      -- without content a test update writes no file
      rfl
    · cases tests

theorem manifestStep_of_built {σ : Type} [FileStore σ] {id : String} {now : Timestamp}
    {settings : Settings} {store : σ} {patterns : List Pattern} {r : Request} {plan : Plan}
    (built : build id now settings store patterns r = .ok plan)
    (moves : r.move.touchesManifest = true) (apart : r.manifest.same r.buildConfig = false) :
    ∃ before s after, plan.steps = before ++ s :: after ∧ s.kind = .dependencyUpdate ∧
      s.path = r.manifest ∧ Step.jsonRule ∈ s.rules ∧
      (∀ p ∈ patterns, (∃ step ∈ plan.steps, step.pattern = some p.id) →
        ∀ declared ∈ p.dependencies, declared ∈ s.dependencies) ∧
      ∀ later ∈ after, later.writesAt r.manifest = false := by
  obtain ⟨listed, rewrites, -, -, rfl⟩ := build_ok built
  obtain ⟨rest, auxiliary, spared⟩ := auxiliarySteps_manifest moves apart settings.planning
    patterns listed (codeSteps settings.risk rewrites)
  refine ⟨codeSteps settings.risk rewrites, _, rest, by rw [← auxiliary]; rfl, rfl, rfl,
    List.mem_singleton.mpr rfl, fun p member used declared declares => ?_, spared⟩
  obtain ⟨step, planned, own⟩ := used
  rcases List.mem_append.mp planned with code | other
  · exact neededPackages_of_used member ⟨step, code, own⟩ declares
  · -- the steps beside the code steps have no pattern
    obtain ⟨position, rfl | rfl | rfl⟩ := auxiliarySteps_cases other <;> cases own

end Plan

/-! ### A manifest step that comes through -/

theorem Validator.parse?_of_checkJson {content : String} (accepted : checkJson content = none) :
    ∃ value, Json.parse? content = .ok value := by
  unfold checkJson at accepted
  split at accepted
  · exact ⟨_, ‹_›⟩
  · cases accepted

namespace Step

variable {σ : Type} [FileStore σ] [FileStore.Faithful σ] {c : Collaborators σ} {k : Conditions σ}
  {id : String} {s : Step} {b left : Bench σ}

theorem run_lists (updates : c.dependencies = Manifest.update)
    (checks : c.validator = Validator.builtin) (kind : s.kind = .dependencyUpdate)
    (json : jsonRule ∈ s.rules) {diagnostics : List Diagnostic}
    (ran : s.run c k id false b = (.ok diagnostics, left)) :
    ∃ content manifest, FileStore.read? left.settle.store s.path = .ok (some content) ∧
      Json.parse? content = .ok (.object manifest) ∧
      ∀ declared ∈ s.dependencies,
        Manifest.Lists manifest (Manifest.Package.parse declared).name := by
  have writes : s.writesFile = true := by
    unfold writesFile
    rw [kind]
  obtain ⟨after, content, wrote, read, -⟩ := wrote_of_passed writes ran
  obtain ⟨-, same⟩ := stored_of_outcome wrote read
  obtain ⟨-, current, found, call, -, -, acts, done⟩ := wrote
  obtain rfl : Manifest.update s = call := by
    rw [action, kind, updates] at acts
    exact Option.some.inj (Except.ok.inj acts)
  obtain ⟨manifest, ordered, listed, put⟩ := Manifest.update_ok (Bench.result_of_call_ok done)
  have written := Bench.store_settle_call k (Manifest.update s)
    { found with undo := found.undo.push id ⟨s.id, s.path, current⟩ }
  rw [done] at written
  rw [← written, ← same] at put
  have stored := FileStore.read?_of_put put
  -- what is written is then read back and accepted, so it can be read
  have accepted : c.validator s (JsonFile.render manifest) jsonRule = none :=
    (accepted_of_passed writes ran stored).1 _ json rfl
  rw [checks] at accepted
  obtain ⟨value, parsed⟩ := Validator.parse?_of_checkJson accepted
  obtain ⟨members, rfl, kept⟩ := Manifest.lists_of_rendered ordered parsed
  exact ⟨_, members, stored, parsed, fun declared member => kept _ (listed declared member)⟩

end Step

/-! ### The run -/

namespace Execution

theorem attemptAll_elsewhere {c : Collaborators Memory} {k : Conditions Memory}
    {p : Progress Memory} {plan : Plan} (stay : c.StayOnPath) (runs : p.Runs plan)
    (real : plan.request.dryRun = false) {steps : List Step} {q : Path}
    (elsewhere : ∀ s ∈ steps, s.writesAt q = false) :
    (attemptAll c k steps p).bench.settle.store.get? q = p.bench.settle.store.get? q := by
  have never : ∀ s ∈ steps, ¬s.writesAt q = true := fun s member =>
    Bool.eq_false_iff.mp (elsewhere s member)
  have writers : writersAt q (completions c k p steps) = [] := by
    refine List.filter_eq_nil_iff.mpr fun s done => ?_
    obtain ⟨one, among, rfl⟩ := List.mem_map.mp done
    exact never _ (step_mem_of_completion p steps one among)
  rw [attemptAll_contentBehind stay runs real fun s member writes =>
    absurd writes (never s member), writers]
  rfl

/-- What a step of a run that completes without a failed step leaves at a path is there in the
end, if no later step writes there. -/
theorem completed_run_keeps (policy : ExecutionPolicy) {tests : Call Memory TestReport}
    (calm : ∀ m, (tests m).after = m) (v : Validator) (k : Conditions Memory) (plan : Plan)
    (b : Bench Memory) (real : plan.request.dryRun = false) {before after : List Step} {s : Step}
    (steps : plan.steps = before ++ s :: after) :
    let c := { Collaborators.standard policy tests with validator := v }
    let ended := run c k plan b
    ended.1.status = .completed → ended.1.execution.failed = [] →
    ∃ met diagnostics left, s.run c k plan.id false met = (.ok diagnostics, left) ∧
      ∀ q, (∀ later ∈ after, later.writesAt q = false) →
        ended.2.settle.store.get? q = left.settle.store.get? q := by
  intro c ended completed clean
  have stay : c.StayOnPath := Collaborators.standard_stayOnPath policy tests v
  obtain ⟨running, failed, store⟩ := steps_of_completed (c := c) calm k plan b completed
  rw [failed] at clean
  have parted : attemptAll c k plan.steps (prepare c k plan b).2 =
      attemptAll c k after (attempt c k (attemptAll c k before (prepare c k plan b).2) s) := by
    rw [steps]
    exact List.foldl_append
  rw [parted] at running clean store
  have runs := attemptAll_runs (c := c) (k := k) (prepare_runs c k plan b) before
  generalize attemptAll c k before (prepare c k plan b).2 = p at *
  obtain ⟨running, clean⟩ := clean_before running clean
  obtain ⟨diagnostics, left, ran, -, bench⟩ := through_of_clean running clean
  rw [runs.id, runs.plan, real] at ran
  refine ⟨p.bench, diagnostics, left, ran, fun q elsewhere => ?_⟩
  rw [store, attemptAll_elsewhere stay (attempt_runs runs s) real elsewhere, bench]

/-- When a plan that touches the manifest has run to its end without a failed step, the manifest
is a JSON object that lists, in one of its four tables, the name of every package that a pattern
with a step declares. -/
theorem needed_packages_listed (policy : ExecutionPolicy) (tests : Call Memory TestReport)
    (calm : ∀ m, (tests m).after = m) (settings : Settings) (catalog : Catalog) (r : Request)
    (real : r.dryRun = false) (moves : r.move.touchesManifest = true)
    (apart : r.manifest.same r.buildConfig = false) (k : Conditions Memory) (b : Bench Memory)
    (id : String) (now : Timestamp) {plan : Plan}
    (built : Plan.build id now settings b.settle.store catalog.all r = .ok plan) :
    let ended := run (Collaborators.standard policy tests) k plan b
    ended.1.status = .completed → ended.1.execution.failed = [] →
    ∃ content manifest, ended.2.settle.store.get? r.manifest = some content ∧
      Json.parse? content = .ok (.object manifest) ∧
      ∀ p ∈ catalog.all, (∃ s ∈ plan.steps, s.pattern = some p.id) →
        ∀ declared ∈ p.dependencies, ∃ name, Manifest.Declares declared name ∧
          Manifest.Lists manifest name := by
  intro ended completed clean
  obtain ⟨before, s, after, steps, kind, path, json, needs, spared⟩ :=
    Plan.manifestStep_of_built built moves apart
  have own : plan.request.dryRun = false := by rw [Plan.build_request built, real]
  obtain ⟨met, diagnostics, left, ran, kept⟩ := completed_run_keeps policy calm
    Validator.builtin k plan b own steps completed clean
  obtain ⟨content, manifest, stored, parsed, listed⟩ := Step.run_lists rfl rfl kind json ran
  rw [path, Memory.read?_eq] at stored
  refine ⟨content, manifest, (kept _ spared).trans (Except.ok.inj stored), parsed, ?_⟩
  intro p member used declared declares
  exact ⟨_, Manifest.declares_iff.mpr rfl, listed declared (needs p member used declared declares)⟩

/-- A pattern that needs two packages, of which the manifest lists one already. -/
def packagedPattern : Catalog where
  byId := [
    ("var", { id := "var", name := "var", category := .generalLanguage,
              matcher := .literal "var ", transform := .replace "let ",
              dependencies := ["pad@2", "@scope/left@1"] })]
  order := ["var"]

def packagedRequest : Request :=
  { source := "1", target := "2", move := .dependencyUpdate }

def packagedFiles : Bench Memory where
  store := { files := [(⟨"a.js"⟩, "var a;"),
    (⟨"package.json"⟩, "\x7b\"devDependencies\": \x7b\"pad\": \"^1\"\x7d\x7d")] }

def packagedPlan : Except EngineError Plan :=
  Plan.build "m" ⟨0, 0⟩ {} packagedFiles.settle.store packagedPattern.all packagedRequest

theorem packages_of_pattern_listed :
    ∃ plan, packagedPlan = .ok plan ∧
      let ended := run (Collaborators.standard {}) { deadline := 10 } plan packagedFiles
      ended.1.status = .completed ∧ ended.1.execution.failed = [] ∧
        ∃ content manifest, ended.2.settle.store.get? ⟨"package.json"⟩ = some content ∧
          Json.parse? content = .ok (.object manifest) ∧
          Manifest.Lists manifest "pad" ∧ Manifest.Lists manifest "@scope/left" := by
  obtain ⟨plan, built⟩ : ∃ plan, packagedPlan = .ok plan := ⟨_, rfl⟩
  have facts : ∀ plan ∈ packagedPlan.toOption,
      let ended := run (Collaborators.standard {}) { deadline := 10 } plan packagedFiles
      (ended.1.status = .completed ∧ ended.1.execution.failed = []) ∧
        ∃ s ∈ plan.steps, s.pattern = some "var" := by
    decide +kernel
  obtain ⟨⟨completed, clean⟩, used⟩ := facts plan (by rw [built]; rfl)
  obtain ⟨content, manifest, held, parsed, listed⟩ := needed_packages_listed {}
    (Collaborators.fixedTests {}) (fun _ => rfl) {} packagedPattern packagedRequest rfl rfl
    (by decide) { deadline := 10 } packagedFiles "m" ⟨0, 0⟩ built completed clean
  have named := listed _ (List.mem_singleton.mpr rfl) used
  obtain ⟨pad, named₁, listed₁⟩ := named "pad@2" (by decide)
  obtain ⟨left, named₂, listed₂⟩ := named "@scope/left@1" (by decide)
  obtain rfl : "pad" = pad := Manifest.declares_iff.mp named₁
  obtain rfl : "@scope/left" = left := Manifest.declares_iff.mp named₂
  exact ⟨plan, built, completed, clean, content, manifest, held, parsed, listed₁, listed₂⟩

end Execution

end Uplift
