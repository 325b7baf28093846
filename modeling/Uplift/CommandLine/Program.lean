import Uplift.Collaborator.Machine
import Uplift.Collaborator.Standard
import Uplift.CommandLine.Arguments
import Uplift.CommandLine.Failure
import Uplift.CommandLine.Summary
import Uplift.Engine.Basic
import Uplift.Files.Walk
import Uplift.Json.Printer

/-!
# The program

A run of the program is a function of its arguments, the environment and the files below
the working directory. It gives an exit code, what is printed, and the files afterwards.
The code is zero on success, one after a failure, and two if the arguments make no sense.
-/

namespace Uplift.CommandLine

/-- What a run starts from. -/
structure Occasion where
  args : List String
  env : Keyed String := []
  /-- The id of the plan that is made. -/
  id : String
  now : Timestamp
  /-- Where the command that tests the project runs. -/
  machine : Machine Disk := .small Disk.kindAt? true

/-- What a run shows and leaves behind. -/
structure Ending where
  code : Nat
  output : String := ""
  /-- Messages, from what failed to why. -/
  errors : List String := []
  disk : Disk

namespace Ending

def done (disk : Disk) (output : String) : Ending := { code := 0, output := output, disk := disk }

def failed (disk : Disk) (f : Failure) : Ending := { code := 1, errors := f.chain, disk := disk }

end Ending

def programName : String := "codemig"

def versionText (verb : Option Verb) : String :=
  match verb with
  | some verb => s!"{programName}-{verb.label} 0.1.0\n"
  | none => s!"{programName} 0.1.0\n"

def helpText : String :=
  s!"Usage: {programName} [OPTIONS] <COMMAND>\n\nCommands:\n" ++
    Text.ofLines (Verb.all.map fun verb => "  " ++ verb.label) ++ "\nOptions:\n" ++
    Text.ofLines (Flag.all.map fun f => "  --" ++ f.long)

/-! ### Input files -/

def readFile (d : Disk) (p : Path) : Except Failure String :=
  if p.text.isEmpty then .error (.unreadable p .notFound)
  else (d.readAt p).mapError (.unreadable p)

def writeFile (d : Disk) (p : Path) (content : String) : Except Failure Disk :=
  if p.text.isEmpty then .error (.unwritable p .notFound)
  else (d.saveAt p (.text content)).mapError (.unwritable p)

def settingsOf (a : Arguments) (d : Disk) : Except Failure Settings :=
  match a.value? .settings with
  | none => .ok {}
  | some p => do
    let text ← readFile d ⟨p⟩
    (Settings.ofJson? text).mapError (.badSettings ⟨p⟩)

/-! ### The request -/

/-- What the flags change in a request. -/
def adjust (a : Arguments) (r : Request) : Request where
  source := (a.value? .source).getD r.source
  target := (a.value? .target).getD r.target
  move := ((a.value? .move).bind Move.ofLabel?).getD r.move
  safety := ((a.value? .safety).bind Safety.ofLabel?).getD r.safety
  autoApply := r.autoApply
  dryRun := if a.verb = .migrate then a.has .dryRun else r.dryRun
  backup := r.backup && !a.has .noBackup
  rollback := r.rollback && !a.has .noRollback
  includeTests := r.includeTests || a.has .tests
  included := r.included ++ a.values .included
  excluded := r.excluded ++ a.values .excluded
  manifest := r.manifest
  buildConfig := r.buildConfig
  overrides := r.overrides.extend ((a.values .override).filterMap override?)

def requestFile (a : Arguments) (d : Disk) : Except Failure Request :=
  match a.value? .config with
  | none => .ok {}
  | some p => do
    let text ← readFile d ⟨p⟩
    (Request.ofJson? text).mapError (.badRequest ⟨p⟩)

def requestOf (a : Arguments) (d : Disk) : Except Failure Request := do
  let r := adjust a (← requestFile a d)
  if r.source.isEmpty || r.target.isEmpty then .error .noVersions else return r

/-! ### The engine -/

def rootOf (a : Arguments) : Path := ⟨(a.value? .root).getD "."⟩

def openRoot (d : Disk) (root : Path) : Except Failure Disk :=
  if root.text.isEmpty then
    .error (.noProject root (.setup s!"cannot open {root}: {FileCause.notFound.message}"))
  else
    match Scanner.open? { d with root := ⟨""⟩ } root with
    | .ok s => .ok (d.startingAt root s.start)
    | .error e => .error (.noProject root e)

/-- The command that tests the project; a plan is never tested. -/
def testsOf (o : Occasion) (a : Arguments) (root : Path) :
    Except Failure (Call Disk TestReport) :=
  if a.verb ≠ .migrate then .ok (Collaborators.fixedTests {})
  else
    match Text.words ((a.value? .testCommand).getD "npm test").toList with
    | [] => .error .noTestCommand
    | program :: args =>
      let c : Command := { program := program, args := args, dir := some root }
      .ok (c.test o.machine)

def openEngine (o : Occasion) (a : Arguments) (s : Settings) (d : Disk) :
    Except Failure (Engine Disk) := do
  let project ← openRoot d (rootOf a)
  let tests ← testsOf o a (rootOf a)
  let c := Collaborators.standard s.execution tests
  (Engine.withBuiltin c s project).mapError .engine

/-! ### Verbs -/

def jsonText (j : Json) : String := j.pretty ++ "\n"

def planned (o : Occasion) (a : Arguments) (e : Engine Disk) (r : Request) :
    Except Failure String := do
  let plan ← (e.plan o.id o.now r).mapError .engine
  return if a.has .json then jsonText plan.toJson else Summary.ofPlan plan

def listed (a : Arguments) (e : Engine Disk) : String :=
  let ps :=
    match (a.value? .category).bind Category.ofLabel? with
    | some category => e.catalog.all.filter (·.category = category)
    | none => e.catalog.all
  if a.has .json then jsonText (.array (ps.map Pattern.summary)) else Summary.ofPatterns ps

/-- What is printed about a run; its report may have gone to a file. -/
def runText (a : Arguments) (r : Run) : String :=
  if a.has .json then jsonText r.toJson
  else if a.has .report then Summary.ofRun r
  else Report.ofRun r

def saveReport (a : Arguments) (d : Disk) (r : Run) : Except Failure Disk :=
  match a.value? .report with
  | some p => writeFile d ⟨p⟩ (Report.ofRun r)
  | none => .ok d

/-- Runs a plan for the project in `d`; an incomplete run counts as a failure, and yet is shown. -/
def migrated (o : Occasion) (a : Arguments) (d : Disk) (e : Engine Disk) (r : Request) : Ending :=
  let ran := do
    let plan ← e.plan o.id o.now r
    e.execute o.now plan
  match ran with
  | .error error => .failed d (.engine error)
  | .ok (run, e) =>
    let after := e.store.startingAt d.root d.base
    match saveReport a after run with
    | .error f => .failed after f
    | .ok after =>
      let text := runText a run
      if run.outcome.success then .done after text
      else { Ending.failed after .incomplete with output := text }

def perform (o : Occasion) (a : Arguments) (d : Disk) : Except Failure Ending := do
  let s ← settingsOf a d
  let e ← openEngine o a s d
  match a.verb with
  | .patterns => return .done d (listed a e)
  | .plan => return .done d (← planned o a e (← requestOf a d))
  | .migrate => return migrated o a d e (← requestOf a d)

def run (o : Occasion) (d : Disk) : Ending :=
  match Arguments.read o.env o.args with
  | .ok a =>
    match perform o a d with
    | .ok ending => ending
    | .error f => .failed d f
  | .error .misuse => { code := 2, disk := d }
  | .error .help => .done d helpText
  | .error (.version verb) => .done d (versionText verb)

end Uplift.CommandLine
