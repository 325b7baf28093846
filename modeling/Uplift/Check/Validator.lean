import Uplift.Check.Danger
import Uplift.Check.Delimiters
import Uplift.Json.Decode
import Uplift.Step
import Uplift.Text.Class

/-!
# Checking a step's rules

A validator looks at the content that a step left behind and says what violates a rule.
A violation of a rule of error severity fails the step and ends the check; the others are
collected in the order of the rules.
-/

namespace Uplift

/-- What violates a rule of a step in a content, none if nothing does. -/
abbrev Validator := Step → String → Rule → Option String

namespace Validator

/-- The subject of a rule that asks for a JSON document. -/
def jsonSubject : String := "json"

def isBlank (text : String) : Bool := (Text.trim text.toList).isEmpty

def checkJson (content : String) : Option String :=
  match Json.parse? content with
  | .ok _ => none
  | .error fault => some s!"invalid JSON: {fault.message content}"

/-- Delimiters must balance, unless they did not balance before the step either. -/
def checkDelimiters (s : Step) (content : String) : Option String :=
  let balancedBefore := (s.original.bind Delimiters.issue?).isNone
  match Delimiters.issue? content with
  | some issue => if balancedBefore then some issue.message else none
  | none => none

def checkForm (s : Step) (content : String) (rule : Rule) : Option String :=
  if rule.subject = jsonSubject then checkJson content else checkDelimiters s content

/-- A text must not become blank. -/
def checkMeaning (s : Step) (content : String) : Option String :=
  let wasBlank := (s.original.map isBlank).getD true
  if !wasBlank && isBlank content then some "transformation removed all content" else none

/-- How many bytes a text of `before` bytes may grow to. -/
def growthLimit (before : Nat) : Nat := before + before / 2 + 1024

def checkGrowth (s : Step) (content : String) : Option String :=
  let before := (s.original.map (·.utf8ByteSize)).getD 0
  let after := content.utf8ByteSize
  if growthLimit before < after then some s!"file grew from {before} to {after} bytes" else none

def checkDanger (s : Step) (content : String) : Option String :=
  match Danger.introduced (s.original.getD "") content with
  | [] => none
  | found => some ("introduces " ++ ", ".intercalate found)

/-- Checks that need no tools beside the text. -/
def builtin : Validator := fun s content rule =>
  match rule.check with
  | .form => checkForm s content rule
  | .meaning => checkMeaning s content
  | .performance => checkGrowth s content
  | .compatibility => none
  | .security => checkDanger s content

end Validator

/-- A violation that does not fail its step. -/
structure Diagnostic where
  step : StepId
  check : Check
  severity : Severity
  message : String
  deriving DecidableEq, Repr, Inhabited

def Diagnostic.render (d : Diagnostic) : String :=
  s!"step {d.step}: {d.check.label} {d.severity.label}: {d.message}"

/-- The violation that fails a step. -/
structure Violation where
  check : Check
  message : String
  deriving DecidableEq, Repr, Inhabited

namespace Validator

/-- Checks rules in order; the first violation of error severity ends the check. -/
def checkRules (v : Validator) (s : Step) (content : String) :
    List Rule → Except Violation (List Diagnostic)
  | [] => .ok []
  | rule :: rest =>
    match v s content rule with
    | none => checkRules v s content rest
    | some message =>
      if rule.severity = .error then .error ⟨rule.check, message⟩
      else (checkRules v s content rest).map (⟨s.id, rule.check, rule.severity, message⟩ :: ·)

/-- Checks all rules of a step; without a content there is nothing to check. -/
def checkStep (v : Validator) (s : Step) : Option String → Except Violation (List Diagnostic)
  | none => .ok []
  | some content => v.checkRules s content s.rules

end Validator

end Uplift
