import Uplift.Json.Access
import Uplift.Path
import Uplift.Risk
import Uplift.Text.Lines

/-!
# Steps

A step changes at most one file. Rules attached to it are checked on what it leaves there.
-/

namespace Uplift

/-- Names a step within its plan. -/
structure StepId where
  text : String
  deriving DecidableEq, Repr, Inhabited

namespace StepId

instance : ToString StepId := ⟨StepId.text⟩

/-- The id of the step that `origin` wants at `path`, `position` steps into the plan. -/
def derive (origin : String) (path : Path) (position : Nat) : StepId :=
  ⟨s!"{origin}:{path}:{position}"⟩

end StepId

inductive StepKind where
  | codeTransformation
  | dependencyUpdate
  | configChange
  | fileOperation
  | testUpdate
  deriving DecidableEq, Repr, Inhabited

namespace StepKind

def all : List StepKind :=
  [codeTransformation, dependencyUpdate, configChange, fileOperation, testUpdate]

def label : StepKind → String
  | codeTransformation => "code-transformation"
  | dependencyUpdate => "dependency-update"
  | configChange => "config-change"
  | fileOperation => "file-operation"
  | testUpdate => "test-update"

def ofLabel? (s : String) : Option StepKind := all.find? (·.label = s)

theorem ofLabel?_label (k : StepKind) : ofLabel? k.label = some k := by cases k <;> rfl

end StepKind

/-- What a rule looks at: form, meaning, growth, the target version, or dangerous calls. -/
inductive Check where
  | form
  | meaning
  | performance
  | compatibility
  | security
  deriving DecidableEq, Repr, Inhabited

namespace Check

def all : List Check := [form, meaning, performance, compatibility, security]

def label : Check → String
  | form => "syntax"
  | meaning => "semantic"
  | performance => "performance"
  | compatibility => "compatibility"
  | security => "security"

def ofLabel? (s : String) : Option Check := all.find? (·.label = s)

theorem ofLabel?_label (c : Check) : ofLabel? c.label = some c := by cases c <;> rfl

end Check

/-- A violation of error severity fails the step, any other is only reported. -/
inductive Severity where
  | error
  | warning
  | info
  deriving DecidableEq, Repr, Inhabited

namespace Severity

def all : List Severity := [error, warning, info]

def label : Severity → String
  | error => "error"
  | warning => "warning"
  | info => "info"

def ofLabel? (s : String) : Option Severity := all.find? (·.label = s)

def rank : Severity → Nat
  | error => 0
  | warning => 1
  | info => 2

theorem ofLabel?_label (s : Severity) : ofLabel? s.label = some s := by cases s <;> rfl

end Severity

structure Rule where
  check : Check
  subject : String
  severity : Severity
  deriving DecidableEq, Repr, Inhabited

structure Step where
  id : StepId
  kind : StepKind
  description : String := ""
  pattern : Option String := none
  path : Path
  original : Option String := none
  transformed : Option String := none
  risk : Risk := .low
  seconds : Nat := 0
  dependencies : List String := []
  undo : Option String := none
  rules : List Rule := []
  params : Keyed String := []
  deriving DecidableEq, Repr, Inhabited

namespace Step

/-- Lines gained, where both contents are known. -/
def lineDelta? (s : Step) : Option Int := do
  let before ← s.original
  let after ← s.transformed
  return (Text.lineCount after : Int) - Text.lineCount before

def announcesBreak (s : Step) : Bool :=
  Text.contains "breaking".toList (s.description.toList.map Char.toLower)

/-- Whether running the step changes a file, so that its content is kept for undoing. -/
def writesFile (s : Step) : Bool :=
  match s.kind with
  | .codeTransformation | .fileOperation | .dependencyUpdate | .configChange => true
  | .testUpdate => s.transformed.isSome

end Step

/-! ### JSON form -/

open Json

def Rule.toJson (r : Rule) : Json := .object [
  ("kind", .string r.check.label),
  ("rule", .string r.subject),
  ("severity", .string r.severity.label)]

def Step.toJson (s : Step) : Json := .object [
  ("id", .string s.id.text),
  ("step_type", .string s.kind.label),
  ("description", .string s.description),
  ("pattern_id", ofOption .string s.pattern),
  ("file_path", .string s.path.text),
  ("original_content", ofOption .string s.original),
  ("transformed_content", ofOption .string s.transformed),
  ("risk_level", .string s.risk.label),
  ("estimated_time", ofNat s.seconds),
  ("dependencies", ofStrings s.dependencies),
  ("rollback_action", ofOption .string s.undo),
  ("validation_rules", .array (s.rules.map Rule.toJson)),
  ("params", .object (s.params.map fun (k, v) => (k, .string v)))]

def Rule.ofJson (j : Json) : Rule where
  check := j.labelled "kind" Check.ofLabel? .form
  subject := j.str "rule"
  severity := j.labelled "severity" Severity.ofLabel? .error

/-- Reads a step; what is not given stays as in a step without content. -/
def Step.ofJson (j : Json) : Step where
  id := ⟨j.str "id" "s"⟩
  kind := j.labelled "step_type" StepKind.ofLabel? .codeTransformation
  description := j.str "description"
  pattern := j.str? "pattern_id"
  path := ⟨j.str "file_path" "a.js"⟩
  original := j.str? "original_content"
  transformed := j.str? "transformed_content"
  risk := j.labelled "risk_level" Risk.ofLabel? .low
  seconds := j.nat "estimated_time"
  dependencies := j.strs "dependencies"
  undo := j.str? "rollback_action"
  rules := (j.list "validation_rules").map Rule.ofJson
  params := j.strings "params"

end Uplift
