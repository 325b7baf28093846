import Uplift.Plan

/-!
# Runs

What a run of a plan did: its status, the steps done and failed, what it measured and
what it left behind. The status moves from pending over running to one of three ends; a
completed or failed run can still be rolled back.
-/

namespace Uplift

inductive Status where
  | pending
  | running
  | completed
  | failed
  | rolledBack
  deriving DecidableEq, Repr, Inhabited

namespace Status

def all : List Status := [pending, running, completed, failed, rolledBack]

def label : Status → String
  | pending => "pending"
  | running => "running"
  | completed => "completed"
  | failed => "failed"
  | rolledBack => "rolled-back"

def ofLabel? (s : String) : Option Status := all.find? (·.label = s)

def isTerminal : Status → Bool
  | completed | failed | rolledBack => true
  | pending | running => false

def canBecome : Status → Status → Bool
  | pending, running => true
  | running, completed | running, failed | running, rolledBack => true
  | completed, rolledBack | failed, rolledBack => true
  | _, _ => false

theorem ofLabel?_label (s : Status) : ofLabel? s.label = some s := by cases s <;> rfl

end Status

structure ExecutionRecord where
  started : Option Timestamp := none
  ended : Option Timestamp := none
  status : Status := .pending
  completed : List StepId := []
  failed : List StepId := []
  warnings : List String := []
  errors : List String := []
  deriving DecidableEq, Repr, Inhabited

/-- Moves to `next` if that is allowed, and says whether it was. -/
def ExecutionRecord.transition (r : ExecutionRecord) (next : Status) : Bool × ExecutionRecord :=
  if r.status.canBecome next then (true, { r with status := next }) else (false, r)

structure Outcome where
  success : Bool := false
  changes : Nat := 0
  testsPassed : Nat := 0
  testsFailed : Nat := 0
  before : Keyed Float := []
  after : Keyed Float := []
  canRollBack : Bool := false
  deriving Inhabited

structure LogLine where
  time : Timestamp
  text : String
  deriving DecidableEq, Repr, Inhabited

def LogLine.render (l : LogLine) : String := s!"[{l.time.clockText}] {l.text}"

structure Artifacts where
  backup : Option String := none
  logs : List LogLine := []
  metrics : Keyed Float := []
  diff : String := ""
  deriving Inhabited

/-- The result of running a plan, under the plan's id. -/
structure Run where
  id : String
  timestamp : Timestamp
  plan : Plan
  execution : ExecutionRecord := {}
  outcome : Outcome := {}
  artifacts : Artifacts := {}
  deriving Inhabited

namespace Run

def ofPlan (p : Plan) (now : Timestamp) : Run := { id := p.id, timestamp := now, plan := p }

def status (r : Run) : Status := r.execution.status

/-- Moves to `next` if that is allowed, and says whether it was. -/
def become (r : Run) (next : Status) : Bool × Run :=
  let moved := r.execution.transition next
  (moved.1, { r with execution := moved.2 })

def log (r : Run) (now : Timestamp) (text : String) : Run :=
  { r with artifacts := { r.artifacts with logs := r.artifacts.logs ++ [⟨now, text⟩] } }

def warn (r : Run) (text : String) : Run :=
  { r with execution := { r.execution with warnings := r.execution.warnings ++ [text] } }

def addError (r : Run) (text : String) : Run :=
  { r with execution := { r.execution with errors := r.execution.errors ++ [text] } }

end Run

/-! ### JSON form -/

open Json

def ofFloats (m : Keyed Float) : Json := .object (m.map fun (k, v) => (k, ofFloat v))

def ExecutionRecord.toJson (e : ExecutionRecord) : Json := .object [
  ("start_time", ofOption (fun t : Timestamp => .string t.zuluText) e.started),
  ("end_time", ofOption (fun t : Timestamp => .string t.zuluText) e.ended),
  ("status", .string e.status.label),
  ("completed_steps", ofStrings (e.completed.map (·.text))),
  ("failed_steps", ofStrings (e.failed.map (·.text))),
  ("warnings", ofStrings e.warnings),
  ("errors", ofStrings e.errors)]

def Outcome.toJson (o : Outcome) : Json := .object [
  ("success", .bool o.success),
  ("changes_applied", ofNat o.changes),
  ("tests_passed", ofNat o.testsPassed),
  ("tests_failed", ofNat o.testsFailed),
  ("performance_before", ofFloats o.before),
  ("performance_after", ofFloats o.after),
  ("rollback_available", .bool o.canRollBack)]

def Artifacts.toJson (a : Artifacts) : Json := .object [
  ("backup_location", ofOption .string a.backup),
  ("logs", ofStrings (a.logs.map LogLine.render)),
  ("metrics", ofFloats a.metrics),
  ("diff_report", .string a.diff)]

def Run.toJson (r : Run) : Json := .object [
  ("id", .string r.id),
  ("timestamp", .string r.timestamp.zuluText),
  ("plan", r.plan.toJson),
  ("execution", r.execution.toJson),
  ("outcome", r.outcome.toJson),
  ("artifacts", r.artifacts.toJson)]

/-! ### Reading runs -/

def ExecutionRecord.ofJson (j : Json) : ExecutionRecord where
  started := (j.str? "start_time").bind Timestamp.parse?
  ended := (j.str? "end_time").bind Timestamp.parse?
  status := j.labelled "status" Status.ofLabel? .pending
  completed := stepIds j "completed_steps"
  failed := stepIds j "failed_steps"
  warnings := j.strs "warnings"
  errors := j.strs "errors"

def Outcome.ofJson (j : Json) : Outcome where
  success := j.flag "success"
  changes := j.nat "changes_applied"
  testsPassed := j.nat "tests_passed"
  testsFailed := j.nat "tests_failed"
  before := j.floats "performance_before"
  after := j.floats "performance_after"
  canRollBack := j.flag "rollback_available"

/-- Reads what a run left behind but for its log, whose lines hold no full moments. -/
def Artifacts.ofJson (j : Json) : Artifacts where
  backup := j.str? "backup_location"
  metrics := j.floats "metrics"
  diff := j.str "diff_report"

def Run.ofJson (j : Json) : Run where
  id := j.str "id"
  timestamp := ((j.str? "timestamp").bind Timestamp.parse?).getD ⟨0, 0⟩
  plan := .ofJson (j.get "plan")
  execution := .ofJson (j.get "execution")
  outcome := .ofJson (j.get "outcome")
  artifacts := .ofJson (j.get "artifacts")

end Uplift
