import Uplift.Json.Printer
import Uplift.Request
import Uplift.Step
import Uplift.Timestamp

/-!
# Plans

A plan lists the steps that answer a request, with what they risk, change and promise,
and how they fall into milestones.
-/

namespace Uplift

structure RiskAssessment where
  overall : Risk := .low
  criticalSteps : Nat := 0
  rollbackComplexity : Nat := 0
  downtime : Nat := 0
  /-- The files to copy before the first step. -/
  backups : List Path := []
  deriving DecidableEq, Repr, Inhabited

structure Impact where
  files : Nat := 0
  lines : Int := 0
  breaking : Nat := 0
  deprecated : List String := []
  introduced : List String := []
  deriving DecidableEq, Repr, Inhabited

inductive Compatibility where
  | compatible
  | needsReview
  | incompatible
  deriving DecidableEq, Repr, Inhabited

namespace Compatibility

def all : List Compatibility := [compatible, needsReview, incompatible]

def ofRisk : Risk → Compatibility
  | .low | .medium => compatible
  | .high => needsReview
  | .critical => incompatible

def label : Compatibility → String
  | compatible => "compatible"
  | needsReview => "needs-review"
  | incompatible => "incompatible"

def ofLabel? (s : String) : Option Compatibility := all.find? (·.label = s)

/-- The name used in reports. -/
def title : Compatibility → String
  | compatible => "Compatible"
  | needsReview => "NeedsReview"
  | incompatible => "Incompatible"

def rank : Compatibility → Nat
  | compatible => 0
  | needsReview => 1
  | incompatible => 2

def max (a b : Compatibility) : Compatibility := if a.rank ≤ b.rank then b else a

end Compatibility

inductive PerformanceImpact where
  | none
  | low
  | medium
  | high
  deriving DecidableEq, Repr, Inhabited

namespace PerformanceImpact

def all : List PerformanceImpact := [none, low, medium, high]

def label : PerformanceImpact → String
  | none => "none"
  | low => "low"
  | medium => "medium"
  | high => "high"

def ofLabel? (s : String) : Option PerformanceImpact := all.find? (·.label = s)

def title : PerformanceImpact → String
  | none => "None"
  | low => "Low"
  | medium => "Medium"
  | high => "High"

end PerformanceImpact

inductive SecurityStatus where
  | clean
  | reviewRequired
  deriving DecidableEq, Repr, Inhabited

namespace SecurityStatus

def all : List SecurityStatus := [clean, reviewRequired]

def label : SecurityStatus → String
  | clean => "clean"
  | reviewRequired => "review-required"

def ofLabel? (s : String) : Option SecurityStatus := all.find? (·.label = s)

def title : SecurityStatus → String
  | clean => "Clean"
  | reviewRequired => "ReviewRequired"

end SecurityStatus

structure ValidationSummary where
  /-- Percentage of the changed source files that have a test. -/
  testCoverage : Float := 0.0
  performance : PerformanceImpact := .none
  compatibility : Keyed Compatibility := []
  security : SecurityStatus := .clean
  deriving Inhabited

structure Milestone where
  id : String
  name : String
  steps : List StepId
  dependsOn : Option String
  seconds : Nat
  deriving DecidableEq, Repr, Inhabited

structure Schedule where
  seconds : Nat := 0
  milestones : List Milestone := []
  /-- Milestones after which a run may stop. -/
  rollbackPoints : List String := []
  deriving DecidableEq, Repr, Inhabited

structure Plan where
  id : String
  createdAt : Timestamp := ⟨0, 0⟩
  request : Request
  steps : List Step
  risk : RiskAssessment := {}
  impact : Impact := {}
  validation : ValidationSummary := {}
  schedule : Schedule := {}
  deriving Inhabited

def Plan.step? (p : Plan) (id : StepId) : Option Step := p.steps.find? (·.id = id)

/-! ### JSON form -/

open Json

def RiskAssessment.toJson (r : RiskAssessment) : Json := .object [
  ("overall_risk", .string r.overall.label),
  ("critical_steps", ofNat r.criticalSteps),
  ("rollback_complexity", ofNat r.rollbackComplexity),
  ("estimated_downtime", ofNat r.downtime),
  ("backup_requirements", ofStrings (r.backups.map (·.text)))]

def Impact.toJson (i : Impact) : Json := .object [
  ("files_affected", ofNat i.files),
  ("lines_of_code_changed", ofInt i.lines),
  ("breaking_changes", ofNat i.breaking),
  ("deprecated_features", ofStrings i.deprecated),
  ("new_features", ofStrings i.introduced)]

def ValidationSummary.toJson (v : ValidationSummary) : Json := .object [
  ("test_coverage", ofFloat v.testCoverage),
  ("performance_impact", .string v.performance.label),
  ("compatibility", .object (v.compatibility.map fun (k, c) => (k, .string c.label))),
  ("security", .string v.security.label)]

def Milestone.toJson (m : Milestone) : Json := .object [
  ("id", .string m.id),
  ("name", .string m.name),
  ("step_ids", ofStrings (m.steps.map (·.text))),
  ("depends_on", ofOption .string m.dependsOn),
  ("estimated_duration", ofNat m.seconds)]

def Schedule.toJson (s : Schedule) : Json := .object [
  ("estimated_duration", ofNat s.seconds),
  ("milestones", .array (s.milestones.map Milestone.toJson)),
  ("rollback_points", ofStrings s.rollbackPoints)]

def Plan.toJson (p : Plan) : Json := .object [
  ("id", .string p.id),
  ("created_at", .string p.createdAt.zuluText),
  ("config", p.request.toJson),
  ("steps", .array (p.steps.map Step.toJson)),
  ("risk_assessment", p.risk.toJson),
  ("impact", p.impact.toJson),
  ("validation", p.validation.toJson),
  ("schedule", p.schedule.toJson)]

/-! ### Reading plans -/

def stepIds (j : Json) (key : String) : List StepId := (j.strs key).map StepId.mk

def RiskAssessment.ofJson (j : Json) : RiskAssessment where
  overall := j.labelled "overall_risk" Risk.ofLabel? .low
  criticalSteps := j.nat "critical_steps"
  rollbackComplexity := j.nat "rollback_complexity"
  downtime := j.nat "estimated_downtime"
  backups := (j.strs "backup_requirements").map Path.mk

def Impact.ofJson (j : Json) : Impact where
  files := j.nat "files_affected"
  lines := (j.get "lines_of_code_changed").asInt
  breaking := j.nat "breaking_changes"
  deprecated := j.strs "deprecated_features"
  introduced := j.strs "new_features"

def ValidationSummary.ofJson (j : Json) : ValidationSummary where
  testCoverage := (j.get "test_coverage").asFloat
  performance := j.labelled "performance_impact" PerformanceImpact.ofLabel? .none
  compatibility := (j.strings "compatibility").map fun (k, v) =>
    (k, (Compatibility.ofLabel? v).getD .compatible)
  security := j.labelled "security" SecurityStatus.ofLabel? .clean

def Milestone.ofJson (j : Json) : Milestone where
  id := j.str "id"
  name := j.str "name"
  steps := stepIds j "step_ids"
  dependsOn := j.str? "depends_on"
  seconds := j.nat "estimated_duration"

def Schedule.ofJson (j : Json) : Schedule where
  seconds := j.nat "estimated_duration"
  milestones := (j.list "milestones").map Milestone.ofJson
  rollbackPoints := j.strs "rollback_points"

/-- Reads a plan; a request that cannot be read is the default one. -/
def Plan.ofJson (j : Json) : Plan where
  id := j.str "id"
  createdAt := ((j.str? "created_at").bind Timestamp.parse?).getD ⟨0, 0⟩
  request := ((Request.ofJson? (j.get "config").compact).toOption).getD {}
  steps := (j.list "steps").map Step.ofJson
  risk := .ofJson (j.get "risk_assessment")
  impact := .ofJson (j.get "impact")
  validation := .ofJson (j.get "validation")
  schedule := .ofJson (j.get "schedule")

end Uplift
