import Uplift.Run
import Uplift.Run.Diff
import Uplift.Run.Step

/-!
# Running a plan

The steps of a plan run in order. A failed step of low or medium risk is passed over; one
of high or critical risk ends the run, and so does a cancellation before a step. A run
that ended early is undone if the request asks for that; otherwise the tests run.
`attemptAll` is a fold of `attempt`, so what holds between two steps is a fact about a
part of the steps.
-/

namespace Uplift

/-- A move of the status that was asked for, with the answer to it. -/
structure Transition where
  source : Status
  target : Status
  granted : Bool
  deriving DecidableEq, Repr, Inhabited

/-- A run under way, with the moves that its status was asked to make so far. -/
structure Progress (σ : Type) where
  bench : Bench σ
  run : Run
  aborted : Bool := false
  moves : List Transition := []

namespace Progress

variable {σ : Type}

def log (k : Conditions σ) (text : String) (p : Progress σ) : Progress σ :=
  { p with run := p.run.log (p.bench.time k) text }

def warn (text : String) (p : Progress σ) : Progress σ := { p with run := p.run.warn text }

def addError (text : String) (p : Progress σ) : Progress σ :=
  { p with run := p.run.addError text }

def become (status : Status) (p : Progress σ) : Progress σ :=
  let moved := p.run.become status
  { p with run := moved.2, moves := p.moves ++ [⟨p.run.status, status, moved.1⟩] }

def abort (p : Progress σ) : Progress σ := { p with aborted := true }

def addCompleted (step : StepId) (p : Progress σ) : Progress σ :=
  let e := p.run.execution
  { p with run := { p.run with execution := { e with completed := e.completed ++ [step] } } }

def addFailed (step : StepId) (p : Progress σ) : Progress σ :=
  let e := p.run.execution
  { p with run := { p.run with execution := { e with failed := e.failed ++ [step] } } }

def countChange (p : Progress σ) : Progress σ :=
  let o := p.run.outcome
  { p with run := { p.run with outcome := { o with changes := o.changes + 1 } } }

def attempted (p : Progress σ) : Nat :=
  p.run.execution.completed.length + p.run.execution.failed.length

end Progress

namespace Execution

variable {σ : Type} [FileStore σ]

/-! ### Measuring -/

/-- Bytes, lines and number of the files that can be read. -/
def totals (store : σ) (paths : List Path) : Nat × Nat × Nat :=
  let contents := paths.filterMap fun p => (FileStore.read store p).toOption
  (contents.foldr (fun content n => content.utf8ByteSize + n) 0,
    contents.foldr (fun content n => Text.lineCount content + n) 0, contents.length)

def ofCount (n : Nat) : Float := n.toUInt64.toFloat

def measure (k : Conditions σ) (paths : List Path) (b : Bench σ) : Keyed Float × Bench σ :=
  match b.call k (.query fun store => .ok (totals store paths)) with
  | (.ok (bytes, lines, files), b) =>
    ([("files", ofCount files), ("total_bytes", ofCount bytes), ("total_lines", ofCount lines)],
      b)
  | (.error _, b) => ([], b)

def measureBefore (k : Conditions σ) (p : Progress σ) : Progress σ :=
  let (before, bench) := measure k p.run.plan.risk.backups p.bench
  { p with bench := bench, run := { p.run with outcome := { p.run.outcome with before } } }

def measureAfter (k : Conditions σ) (p : Progress σ) : Progress σ :=
  let (after, bench) := measure k p.run.plan.risk.backups p.bench
  { p with bench := bench, run := { p.run with outcome := { p.run.outcome with after } } }

/-! ### The phases of a run -/

def start (k : Conditions σ) (plan : Plan) (b : Bench σ) : Progress σ :=
  let now := b.time k
  let run := Run.ofPlan plan now
  let run := { run with execution := { run.execution with started := some now } }
  let dry := if plan.request.dryRun then " [dry-run]" else ""
  let p := Progress.become .running { bench := b, run := run }
  measureBefore k (p.log k s!"Starting migration {plan.id}: {plan.steps.length} steps{dry}")

/-- Makes the backup and says whether it is there. -/
def makeBackup (c : Collaborators σ) (k : Conditions σ) (p : Progress σ) : Bool × Progress σ :=
  match p.bench.call k (c.backup p.run.plan) with
  | (.ok place, bench) =>
    let p := { p with bench := bench }.log k s!"Backup created at {place}"
    (true,
      { p with run := { p.run with artifacts := { p.run.artifacts with backup := some place } } })
  | (.error e, bench) =>
    (false, { p with bench := bench }.addError s!"Backup failed: {e.message}"
      |>.log k "Backup failed, no steps were run")

/-- Records a step that came through. -/
def passed (k : Conditions σ) (s : Step) (diagnostics : List Diagnostic) (p : Progress σ) :
    Progress σ :=
  let p := p.addCompleted s.id
  let p :=
    if p.run.plan.request.dryRun then p.log k s!"[dry-run] Validated step {s.id}: {s.description}"
    else p.countChange.log k s!"Applied step {s.id}: {s.description}"
  diagnostics.foldl (fun p d => p.warn d.render) p

/-- Records a step that failed; its risk decides whether the run goes on. -/
def stumbled (k : Conditions σ) (s : Step) (e : StepError) (p : Progress σ) : Progress σ :=
  let p := (p.addFailed s.id).addError e.message
  let text := s!"Step {s.id} failed ({s.risk.label} risk)"
  if s.risk.aborts then (p.log k s!"{text}, aborting").abort
  else p.warn s!"{text}, continuing: {e.message}"

def cancel (k : Conditions σ) (s : Step) (p : Progress σ) : Progress σ :=
  (p.addError s!"Migration cancelled before step {s.id}").log k
    s!"Cancelled before step {s.id}" |>.abort

/-- The next step, unless the run has ended or is cancelled. -/
def attempt (c : Collaborators σ) (k : Conditions σ) (p : Progress σ) (s : Step) : Progress σ :=
  if p.aborted then p
  else if k.cancelled p.attempted p.bench.store then cancel k s p
  else
    match s.run c k p.run.id p.run.plan.request.dryRun p.bench with
    | (.ok diagnostics, bench) => passed k s diagnostics { p with bench := bench }
    | (.error e, bench) => stumbled k s e { p with bench := bench }

def attemptAll (c : Collaborators σ) (k : Conditions σ) (steps : List Step) (p : Progress σ) :
    Progress σ :=
  steps.foldl (attempt c k) p

/-- Undoes what is on the stack of the run. -/
def unwind (k : Conditions σ) (p : Progress σ) : Progress σ :=
  let bench := p.bench.settle
  let (report, undo, store) := bench.undo.unwind p.run.id bench.store
  let p := { p with bench := { bench with undo := undo, store := store } }
  let p := report.failures.foldl (fun p f => p.log k s!"Rollback: {f.message}") p
  let p := p.log k (s!"Rolled back {report.restored.length} steps " ++
    s!"({report.failures.length} failed restores)")
  let p := p.become .rolledBack
  { p with run := { p.run with outcome := { p.run.outcome with canRollBack := false } } }

def runTests (c : Collaborators σ) (k : Conditions σ) (p : Progress σ) : Progress σ :=
  match p.bench.call k c.tests with
  | (.ok report, bench) =>
    let o := { p.run.outcome with testsPassed := report.passed, testsFailed := report.failed }
    let p := { p with bench := bench, run := { p.run with outcome := o } }.log k
      s!"Tests: {report.passed} passed, {report.failed} failed"
    if report.failed > 0 then p.warn s!"{report.failed} tests failed after migration" else p
  | (.error e, bench) => { p with bench := bench }.warn s!"Test phase failed: {e.message}"

/-- Ends the steps: what was aborted is undone if asked for, what was not is tested. -/
def conclude (c : Collaborators σ) (k : Conditions σ) (p : Progress σ) : Progress σ :=
  let r := p.run.plan.request
  if p.aborted then
    let p := p.become .failed
    if r.undoesOnAbort && !r.dryRun then unwind k p else p
  else
    let p := if r.includeTests && !r.dryRun then runTests c k p else p
    let p := p.become .completed
    { p with run := { p.run with outcome := { p.run.outcome with success := true } } }

/-- The changes of the code steps that came through, in their order. -/
def diffOf (plan : Plan) (completed : List StepId) : String :=
  String.join (completed.map fun id =>
    match plan.step? id with
    | none => ""
    | some s =>
      match s.kind, s.original, s.transformed with
      | .codeTransformation, some before, some after => diffText s.path.text before after
      | _, _, _ => "")

def metricsOf (p : Progress σ) : Keyed Float :=
  let e := p.run.execution
  [("duration_ms", ofCount p.bench.waited),
    ("rollback_depth", ofCount (p.bench.undo.depth p.run.id)),
    ("steps_completed", ofCount e.completed.length),
    ("steps_failed", ofCount e.failed.length),
    ("steps_total", ofCount p.run.plan.steps.length)]

/-- Forgets records that will not be needed, and sums the run up. -/
def finish (k : Conditions σ) (p : Progress σ) : Progress σ :=
  let drops := p.run.status = .rolledBack || !p.run.plan.request.rollback
  let undo := if drops then p.bench.undo.discard p.run.id else p.bench.undo
  let p := { p with bench := { p.bench with undo := undo } }
  let r := p.run
  let run := { r with
    outcome := { r.outcome with canRollBack := undo.hasRecords r.id }
    artifacts := { r.artifacts with
      diff := diffOf r.plan r.execution.completed
      metrics := metricsOf p }
    execution := { r.execution with ended := some (p.bench.time k) } }
  { p with run := run }.log k s!"Migration {r.id} finished: {r.status.label}"

/-- What comes before the first step; says whether the steps may begin. -/
def prepare (c : Collaborators σ) (k : Conditions σ) (plan : Plan) (b : Bench σ) :
    Bool × Progress σ :=
  let p := start k plan b
  if plan.request.backup && !plan.request.dryRun then makeBackup c k p else (true, p)

/-- Takes a plan from its start to its end, whatever goes wrong on the way. -/
def runToEnd (c : Collaborators σ) (k : Conditions σ) (plan : Plan) (b : Bench σ) : Progress σ :=
  let (isReady, p) := prepare c k plan b
  finish k <|
    if isReady then measureAfter k (conclude c k (attemptAll c k plan.steps p))
    else p.become .failed

/-- Runs a plan; what goes wrong stands in the result. -/
def run (c : Collaborators σ) (k : Conditions σ) (plan : Plan) (b : Bench σ) : Run × Bench σ :=
  let p := runToEnd c k plan b
  (p.run, p.bench)

end Execution

end Uplift
