import Uplift.Json.Basic
import Uplift.Pattern.Template
import Uplift.Risk
import Uplift.Text.Quoted

/-!
# Patterns

A pattern finds places in a text and says what to put there. `applyAll` replaces all
matches in one pass; the text between them stays. Examples tell what a pattern is to do.
-/

namespace Uplift

inductive Category where
  | uiFramework
  | typeSystem
  | generalLanguage
  | styling
  | build
  | testing
  | dependency
  deriving DecidableEq, Repr, Inhabited

namespace Category

def all : List Category :=
  [uiFramework, typeSystem, generalLanguage, styling, build, testing, dependency]

def label : Category → String
  | uiFramework => "ui-framework"
  | typeSystem => "type-system"
  | generalLanguage => "general-language"
  | styling => "styling"
  | build => "build"
  | testing => "testing"
  | dependency => "dependency"

def ofLabel? (s : String) : Option Category := all.find? (·.label = s)

def index (c : Category) : Nat := all.idxOf c

theorem ofLabel?_label (c : Category) : ofLabel? c.label = some c := by cases c <;> rfl

end Category

/-- What a match becomes. -/
inductive Transform where
  | template (text : String)
  | replace (text : String)
  | function (f : Match → String)

def Transform.apply (t : Transform) (m : Match) : String :=
  match t with
  | template text => Template.expand text m
  | replace text => text
  | function f => f m

structure Example where
  input : String
  output : String
  deriving DecidableEq, Repr, Inhabited

structure Pattern where
  id : String
  name : String
  description : String := ""
  category : Category
  matcher : Matcher
  transform : Transform
  risk : Risk := .low
  dependencies : List String := []
  examples : List Example := []
  deprecates : Option String := none
  introduces : Option String := none

inductive PatternError where
  | matchesEmpty (id : String)
  | duplicate (id : String)
  | notFound (id : String)
  | exampleMismatch (id input expected actual : String)
  deriving DecidableEq, Repr

def PatternError.message : PatternError → String
  | matchesEmpty id => s!"pattern '{id}' matches the empty string"
  | duplicate id => s!"pattern '{id}' is already registered"
  | notFound id => s!"pattern '{id}' is not registered"
  | exampleMismatch id input expected actual =>
    s!"pattern '{id}' turns {Text.Quoted.encode input} into {Text.Quoted.encode actual}, " ++
      s!"expected {Text.Quoted.encode expected}"

namespace Pattern

abbrev find (p : Pattern) (content : String) : List Match := p.matcher.find content

/-- `replacement` for the bytes of a text from `start` to `stop`, if both are boundaries. -/
def splice? (content : String) (start stop : Nat) (replacement : String) : Option String :=
  match Text.cut? start content.toList, Text.cut? stop content.toList with
  | some (head, _), some (_, tail) =>
    some (String.ofList head ++ replacement ++ String.ofList tail)
  | _, _ => none

/-- Replaces one match; a match out of range leaves the text as it is. -/
def applyMatch (p : Pattern) (content : String) (m : Match) : String :=
  (splice? content m.start m.stop (p.transform.apply m)).getD content

/-- The text from byte `cursor` on with the matches replaced. -/
def replaceFrom (p : Pattern) (content : List Char) (cursor : Nat) : List Match → List Char
  | [] => ((Text.cut? cursor content).map (·.2)).getD []
  | m :: rest =>
    (Text.slice? cursor m.start content).getD [] ++ (p.transform.apply m).toList ++
      replaceFrom p content m.stop rest

/-- Replaces the matches that were found in a text and counts them. -/
def replaceAll (p : Pattern) (content : String) (found : List Match) : String × Nat :=
  if found.isEmpty then (content, 0)
  else (String.ofList (replaceFrom p content.toList 0 found), found.length)

def applyAll (p : Pattern) (content : String) : String × Nat :=
  p.replaceAll content (p.find content)

def checkExample (p : Pattern) (e : Example) : Except PatternError Unit :=
  let actual := (p.applyAll e.input).1
  if actual = e.output then .ok () else .error (.exampleMismatch p.id e.input e.output actual)

/-- A pattern must not accept the empty text and must do what its examples show. -/
def selfTest (p : Pattern) : Except PatternError Unit := do
  if p.matcher.matchesEmpty then .error (.matchesEmpty p.id)
  p.examples.forM p.checkExample

open Json

def Example.toJson (e : Example) : Json :=
  .object [("input", .string e.input), ("output", .string e.output)]

def summary (p : Pattern) : Json := .object [
  ("id", .string p.id),
  ("name", .string p.name),
  ("description", .string p.description),
  ("category", .string p.category.label),
  ("risk_level", .string p.risk.label),
  ("source", .string p.matcher.source),
  ("dependencies", ofStrings p.dependencies),
  ("examples", .array (p.examples.map Example.toJson))]

end Pattern

end Uplift
