import Uplift.Check.Danger
import Uplift.Files.TestFile
import Uplift.Pattern.Basic
import Uplift.Plan
import Uplift.Settings

/-!
# Assessing steps

Risk, impact and promises of a list of steps. All of them are counts, sums and maxima
over the steps.
-/

namespace Uplift

/-- The paths of the steps, each file once, in the order in which they come. -/
def distinctPaths (steps : List Step) : List Path :=
  steps.foldl (fun seen s => if seen.any s.path.same then seen else seen ++ [s.path]) []

/-- The strings, each once, in the order in which they come. -/
def distinct (xs : List String) : List String :=
  xs.foldl (fun seen x => if x ∈ seen then seen else seen ++ [x]) []

/-- The first pattern with the id that a step names. -/
def Step.patternAmong? (s : Step) (patterns : List Pattern) : Option Pattern :=
  s.pattern.bind fun id => patterns.find? (·.id = id)

def countRisk (risk : Risk) (steps : List Step) : Nat := steps.countP (·.risk = risk)

namespace RiskAssessment

/-- The risk of all steps together. -/
def overallOf (p : RiskPolicy) (steps : List Step) : Risk :=
  let high := countRisk .high steps
  if countRisk .critical steps > 0 then .critical
  else if high > p.highThreshold then .high
  else if high > 0 ∨ countRisk .medium steps > p.mediumThreshold then .medium
  else .low

def downtimeOf (d : Downtime) (steps : List Step) : Nat :=
  countRisk .critical steps * d.critical + countRisk .high steps * d.high +
    countRisk .medium steps * d.medium + steps.length * d.perStep

def ofSteps (steps : List Step) (p : RiskPolicy) : RiskAssessment where
  overall := overallOf p steps
  criticalSteps := countRisk .critical steps
  rollbackComplexity := max (steps.length / p.complexityDivisor) p.complexityFloor
  downtime := downtimeOf p.downtime steps
  backups := distinctPaths steps

end RiskAssessment

/-- Net lines gained by the steps whose contents are known. -/
def netLines (steps : List Step) : Int := (steps.filterMap (·.lineDelta?)).foldr (· + ·) 0

def Impact.ofSteps (steps : List Step) (patterns : List Pattern) : Impact :=
  let used := steps.filterMap (·.patternAmong? patterns)
  { files := (distinctPaths steps).length
    lines := netLines steps
    breaking := steps.countP fun s => s.risk = .critical || s.announcesBreak
    deprecated := distinct (used.filterMap (·.deprecates))
    introduced := distinct (used.filterMap (·.introduces)) }

/-- Below `lowLines` net lines the impact is low, below `mediumLines` medium. -/
def PerformanceImpact.ofSteps (steps : List Step) : PerformanceImpact :=
  let lowLines := 100
  let mediumLines := 1000
  let net := (netLines steps).natAbs
  if steps.isEmpty then .none
  else if net < lowLines then .low
  else if net < mediumLines then .medium
  else .high

def SecurityStatus.ofSteps (codeSteps : List Step) : SecurityStatus :=
  let isDangerous (s : Step) : Bool :=
    match s.original, s.transformed with
    | some before, some after => !(Danger.introduced before after).isEmpty
    | _, _ => false
  if codeSteps.any isDangerous then .reviewRequired else .clean

namespace ValidationSummary

/-- Percentage of the changed source files that have a test among the scanned files. -/
def coverageOf (codeSteps : List Step) (scanned : List Path) : Float :=
  let sources := Path.sortedSet ((codeSteps.map (·.path)).filter fun p => !p.isTest)
  let hasTest (p : Path) : Bool := p.testCandidates.any fun c => scanned.any c.same
  if sources.isEmpty then 100.0
  else
    (sources.countP hasTest).toUInt64.toFloat / sources.length.toUInt64.toFloat * 100.0

/-- The verdict for a category is the worst one of its steps. -/
def addVerdict (m : Keyed Compatibility) (key : String) (c : Compatibility) :
    Keyed Compatibility :=
  m.insert key (((m.get? key).getD .compatible).max c)

def compatibilityOf (target : String) (steps codeSteps : List Step) (patterns : List Pattern) :
    Keyed Compatibility :=
  let start : Keyed Compatibility :=
    [(target, Compatibility.ofRisk (Risk.worst (steps.map (·.risk))))]
  codeSteps.foldl (fun m s =>
    match s.patternAmong? patterns with
    | some p => addVerdict m p.category.label (Compatibility.ofRisk s.risk)
    | none => m) start

def ofSteps (r : Request) (steps : List Step) (patterns : List Pattern) (scanned : List Path) :
    ValidationSummary :=
  let codeSteps := steps.filter fun s => s.kind = .codeTransformation
  { testCoverage := if r.includeTests then coverageOf codeSteps scanned else 0.0
    performance := PerformanceImpact.ofSteps steps
    compatibility := compatibilityOf r.target steps codeSteps patterns
    security := SecurityStatus.ofSteps codeSteps }

end ValidationSummary

end Uplift
