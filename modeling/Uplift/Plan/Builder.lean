import Uplift.Analysis.Scan
import Uplift.Check.Validator
import Uplift.Engine.Error
import Uplift.Plan.Assessment
import Uplift.Plan.Schedule

/-!
# Building plans

A plan has one code step for each rewrite of each file, in path order, and after them the
steps that the kind of move asks for: the manifest, the build configuration, the tests.
A step's id ends in its position, so no two steps share one.
-/

namespace Uplift

/-- The keys of a build configuration that record the versions. -/
def sourceVersionKey : String := "codemig.sourceVersion"

def targetVersionKey : String := "codemig.targetVersion"

namespace Step

def jsonRule : Rule := ⟨.form, Validator.jsonSubject, .error⟩

def codeRules (p : Pattern) : List Rule := [
  ⟨.form, p.matcher.source, .error⟩,
  ⟨.meaning, "non-empty-output", .error⟩,
  ⟨.security, "dangerous-apis", .warning⟩,
  ⟨.performance, "growth", .warning⟩]

/-- The step for a rewrite, at a position of the plan. -/
def ofRewrite (policy : RiskPolicy) (path : Path) (position : Nat) (r : Rewrite) : Step where
  id := StepId.derive r.pattern.id path position
  kind := .codeTransformation
  description := if r.pattern.description.isEmpty then r.pattern.name else r.pattern.description
  pattern := some r.pattern.id
  path := path
  original := some r.before
  transformed := some r.after
  risk := r.pattern.risk
  seconds := policy.stepTime r.pattern.risk 1
  dependencies := r.pattern.dependencies
  undo := some s!"restore {path} to its content before {r.pattern.id}"
  rules := codeRules r.pattern

/-- The bare step that stands beside the code steps at a position of the plan. -/
def auxiliary (kind : StepKind) (policy : StepPolicy) (path : Path) (position : Nat) : Step where
  id := StepId.derive kind.label path position
  kind := kind
  path := path
  risk := policy.risk
  seconds := policy.seconds
  undo := some s!"restore {path}"

end Step

namespace Plan

/-- The rewrites of all files that could be read, each with its path. -/
def rewritesOf (results : List (Path × Except FileError Analysis)) :
    Except FileError (List (Path × Rewrite)) :=
  match results with
  | [] => .ok []
  | (_, .ok a) :: rest => (rewritesOf rest).map ((a.rewrites.map (a.path, ·)) ++ ·)
  | (_, .error e) :: rest => if e.isRecoverable then rewritesOf rest else .error e

def codeSteps (policy : RiskPolicy) (rewrites : List (Path × Rewrite)) : List Step :=
  rewrites.mapIdx fun position (path, r) => Step.ofRewrite policy path position r

/-- What the patterns need that have a step. -/
def neededPackages (steps : List Step) (patterns : List Pattern) : List String :=
  let used := steps.filterMap (·.pattern)
  sortedSet ((patterns.filter fun p => p.id ∈ used).flatMap (·.dependencies))

def manifestStep (r : Request) (policy : StepPolicy) (packages : List String)
    (position : Nat) : Step :=
  { Step.auxiliary .dependencyUpdate policy r.manifest position with
    description := s!"Update {r.manifest} dependencies for {r.target}"
    dependencies := packages
    rules := [Step.jsonRule] }

def configStep (r : Request) (policy : StepPolicy) (position : Nat) : Step :=
  { Step.auxiliary .configChange policy r.buildConfig position with
    description := s!"Update {r.buildConfig} for {r.move.label} {r.source} -> {r.target}"
    params := Keyed.extend
      (Keyed.ofList [(sourceVersionKey, r.source), (targetVersionKey, r.target)]) r.overrides
    rules := [Step.jsonRule] }

/-- The tests are taken to be at the first test file. -/
def testStep (r : Request) (policy : StepPolicy) (listed : List Path) (position : Nat) : Step :=
  let path := (listed.find? Path.isTest).getD ⟨"tests"⟩
  { Step.auxiliary .testUpdate policy path position with
    description := s!"Update tests for {r.target}" }

/-- The steps beside the code steps, in their order. -/
def auxiliarySteps (r : Request) (policy : PlanningPolicy) (patterns : List Pattern)
    (listed : List Path) (code : List Step) : List Step :=
  let packages := neededPackages code patterns
  let wanted : List (Nat → Step) :=
    (if r.move.touchesManifest then [manifestStep r policy.dependencyUpdate packages] else []) ++
    (if r.move.touchesBuildConfig then [configStep r policy.configChange] else []) ++
    (if r.includeTests then [testStep r policy.testUpdate listed] else [])
  wanted.mapIdx fun i step => step (code.length + i)

/-- A plan of given steps. -/
def ofSteps (id : String) (now : Timestamp) (s : Settings) (r : Request)
    (patterns : List Pattern) (listed : List Path) (steps : List Step) : Plan where
  id := id
  createdAt := now
  request := r
  steps := steps
  risk := .ofSteps steps s.risk
  impact := .ofSteps steps patterns
  validation := .ofSteps r steps patterns listed
  schedule := .ofSteps steps s.schedule

def build {σ : Type} [FileStore σ] (id : String) (now : Timestamp) (s : Settings) (store : σ)
    (patterns : List Pattern) (r : Request) : Except EngineError Plan :=
  match r.validate with
  | .error e => .error (.config e)
  | .ok () =>
    match FileStore.list store r with
    | .error e => .error (.files e)
    | .ok listed =>
      match rewritesOf (Analysis.ofFiles store patterns listed) with
      | .error e => .error (.files e)
      | .ok rewrites =>
        let code := codeSteps s.risk rewrites
        let steps := code ++ auxiliarySteps r s.planning patterns listed code
        .ok (ofSteps id now s r patterns listed steps)

end Plan

end Uplift
