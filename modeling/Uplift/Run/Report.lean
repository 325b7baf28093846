import Uplift.Decimal.Text
import Uplift.Run
import Uplift.Text.Lines

/-!
# Reports

The report of a run: one section after the other, each under an underlined title.
-/

namespace Uplift.Report

def underline (title : String) : String := String.ofList (List.replicate title.length '-')

/-- A section after an empty line; `count` follows the title, which alone is underlined. -/
def countedSection (title count : String) (rows : List String) : String :=
  Text.ofLines (["", title ++ count, underline title] ++ rows)

def sectionOf (title : String) (rows : List String) : String := countedSection title "" rows

def itemsOf (title : String) (xs : List String) : String :=
  countedSection title s!" ({xs.length})" (xs.map ("  - " ++ ·))

def withSign (n : Int) : String := if n < 0 then toString n else s!"+{n}"

def yesNo (b : Bool) : String := if b then "yes" else "no"

def header (r : Run) : String := Text.ofLines [
  s!"Migration Report: {r.id}",
  "==========================================",
  s!"Generated: {r.timestamp.offsetText}",
  s!"Plan created: {r.plan.createdAt.offsetText}"]

def configuration (r : Request) : String := sectionOf "Configuration" [
  s!"  {r.move.label} {r.source} -> {r.target}",
  s!"  Safety level:  {r.safety.label}",
  s!"  Dry run:       {r.dryRun}",
  s!"  Backup:        {r.backup}",
  s!"  Rollback:      {r.rollback}",
  s!"  Include tests: {r.includeTests}"]

def execution (r : Run) : String :=
  let e := r.execution
  let counts := s!"{r.plan.steps.length} planned, {e.completed.length} completed, " ++
    s!"{e.failed.length} failed"
  sectionOf "Execution" (
    [s!"  Status:  {e.status.label}"] ++
    (e.started.map fun t => s!"  Started: {t.offsetText}").toList ++
    (e.ended.map fun t => s!"  Ended:   {t.offsetText}").toList ++
    [s!"  Steps:   {counts}",
      s!"  Success: {r.outcome.success}",
      s!"  Changes applied: {r.outcome.changes}"])

def featureRow (title : String) (features : List String) : List String :=
  if features.isEmpty then [] else [title ++ ", ".intercalate features]

def riskAndImpact (p : Plan) : String := sectionOf "Risk & Impact" (
  [s!"  Overall risk:        {p.risk.overall.label}",
    s!"  Critical steps:      {p.risk.criticalSteps}",
    s!"  Rollback complexity: {p.risk.rollbackComplexity}",
    s!"  Estimated downtime:  {p.risk.downtime}s",
    s!"  Estimated duration:  {p.schedule.seconds}s",
    s!"  Milestones:          {p.schedule.milestones.length}",
    s!"  Files affected:      {p.impact.files}",
    s!"  Net lines changed:   {withSign p.impact.lines}",
    s!"  Breaking changes:    {p.impact.breaking}"] ++
  featureRow "  Deprecated: " p.impact.deprecated ++
  featureRow "  Introduced: " p.impact.introduced)

def validation (v : ValidationSummary) : String := sectionOf "Validation" (
  [s!"  Test coverage:      {Decimal.fixedOne v.testCoverage.toBits}%",
    s!"  Performance impact: {v.performance.title}",
    s!"  Security:           {v.security.title}"] ++
  v.compatibility.map fun (target, verdict) => s!"  Compatibility {target}: {verdict.title}")

def tests (o : Outcome) : String :=
  sectionOf "Tests" [s!"  Passed: {o.testsPassed}  Failed: {o.testsFailed}"]

def rollback (r : Run) : String := sectionOf "Rollback" (
  [s!"  Available: {yesNo r.outcome.canRollBack}"] ++
  (r.artifacts.backup.map fun place => s!"  Backup:    {place}").toList)

def difference (diff : String) : String :=
  if diff.isEmpty then "" else sectionOf "Diff" [] ++ diff

def ofRun (r : Run) : String := String.join [
  header r, configuration r.plan.request, execution r, riskAndImpact r.plan,
  validation r.plan.validation, tests r.outcome, itemsOf "Errors" r.execution.errors,
  itemsOf "Warnings" r.execution.warnings, rollback r, difference r.artifacts.diff]

end Uplift.Report
