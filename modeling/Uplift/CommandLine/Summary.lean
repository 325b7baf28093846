import Uplift.Pattern.Basic
import Uplift.Run
import Uplift.Text.Lines
import Uplift.Text.Pad

/-!
# Summaries

What the program prints about a plan, about a run whose report went to a file, and about
patterns.
-/

namespace Uplift.CommandLine.Summary

def stepRow (s : Step) : String :=
  s!"  [{Text.padRight 8 s.risk.label}] {s.description} ({s.path})"

def milestone (p : Plan) (m : Milestone) : List String :=
  ["", s!"{m.name} ({m.seconds}s)"] ++ (m.steps.filterMap p.step?).map stepRow

def ofPlan (p : Plan) : String := Text.ofLines ([
  "",
  s!"Migration Plan {p.id}",
  "==========================================",
  s!"{p.request.move.label} {p.request.source} -> {p.request.target}",
  "",
  s!"Steps:              {p.steps.length}",
  s!"Files affected:     {p.impact.files}",
  s!"Overall risk:       {p.risk.overall.label}",
  s!"Critical steps:     {p.risk.criticalSteps}",
  s!"Breaking changes:   {p.impact.breaking}",
  s!"Estimated duration: {p.schedule.seconds}s",
  s!"Estimated downtime: {p.risk.downtime}s"] ++ p.schedule.milestones.flatMap (milestone p))

def ofRun (r : Run) : String :=
  let e := r.execution
  let counts := s!"  {e.completed.length} completed, {e.failed.length} failed, " ++
    s!"{r.outcome.changes} changes applied"
  Text.ofLines ([s!"Migration {r.id}: {r.status.label}", counts] ++ e.errors.map ("  error: " ++ ·))

def patternRow (p : Pattern) : String :=
  " ".intercalate
    [Text.padRight 22 p.id, Text.padRight 17 p.category.label, Text.padRight 9 p.risk.label, p.name]

def ofPatterns (ps : List Pattern) : String :=
  Text.ofLines (ps.map patternRow ++ ["", s!"{ps.length} patterns"])

end Uplift.CommandLine.Summary
