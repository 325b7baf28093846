import Uplift.Proofs.Plan.Building

/-!
# How the form of code steps is judged

A code step has one rule about form, and the subject of that rule is the source of the step's
pattern. The builtin checks go by the balance of the delimiters whatever the subject is, with
one exception: a source that spells the subject reserved for documents has the content judged
as a document (`formVerdicts_of_codeRules`).
-/

namespace Uplift

def Step.formVerdicts (s : Step) (content : String) : List (Option String) :=
  (s.rules.filter (·.check = .form)).map (Validator.builtin s content)

namespace Validator

/-- What is wrong with the delimiters of a text, if those of the text before it are balanced. -/
def balanceVerdict (before after : String) : Option String :=
  match Delimiters.issue? before with
  | some _ => none
  | none => (Delimiters.issue? after).map Delimiters.Issue.message

theorem checkDelimiters_eq {s : Step} {before : String} (original : s.original = some before)
    (content : String) : checkDelimiters s content = balanceVerdict before content := by
  unfold checkDelimiters balanceVerdict
  rw [original, Option.bind_some]
  cases Delimiters.issue? before <;> cases Delimiters.issue? content <;> rfl

end Validator

open Validator (jsonSubject checkJson balanceVerdict checkDelimiters_eq)

theorem Step.formVerdicts_of_codeRules {s : Step} {p : Pattern} (rules : s.rules = codeRules p)
    {before : String} (original : s.original = some before) (content : String) :
    s.formVerdicts content =
      [if p.matcher.source = jsonSubject then checkJson content
        else balanceVerdict before content] := by
  rw [← checkDelimiters_eq original]
  unfold formVerdicts
  rw [rules]
  rfl

namespace Plan

/-- Take two code steps, of any plans, that make the same of the same content. If neither pattern
has the reserved subject as its source, then the delimiters alone decide about both. In general
their rules about form agree exactly if both sources are the reserved subject or neither is, or
if judging the content as a document happens to come to what the delimiters say. -/
theorem form_verdicts_agree_iff {σ σ' : Type} [FileStore σ] [FileStore σ'] {id id' : String}
    {now now' : Timestamp} {settings settings' : Settings} {store : σ} {store' : σ'}
    {patterns patterns' : List Pattern} {r r' : Request} {plan plan' : Plan}
    (built : build id now settings store patterns r = .ok plan)
    (built' : build id' now' settings' store' patterns' r' = .ok plan') {s s' : Step}
    (member : s ∈ plan.steps) (member' : s' ∈ plan'.steps) (code : s.kind = .codeTransformation)
    (code' : s'.kind = .codeTransformation) (original : s.original = s'.original)
    (transformed : s.transformed = s'.transformed) :
    ∃ p ∈ patterns, ∃ p' ∈ patterns', ∃ before after,
      (s.pattern = some p.id ∧ s'.pattern = some p'.id) ∧
      (s.original = some before ∧ s.transformed = some after) ∧
      (p.matcher.source ≠ jsonSubject → p'.matcher.source ≠ jsonSubject →
        s.formVerdicts after = [balanceVerdict before after] ∧
          s'.formVerdicts after = [balanceVerdict before after]) ∧
      (s.formVerdicts after = s'.formVerdicts after ↔
        ((p.matcher.source = jsonSubject ↔ p'.matcher.source = jsonSubject) ∨
          checkJson after = balanceVerdict before after)) := by
  obtain ⟨path, position, rewrite, among, rfl⟩ := codeStep_of_built built member code
  obtain ⟨path', position', rewrite', among', rfl⟩ := codeStep_of_built built' member' code'
  have verdicts : (Step.ofRewrite settings.risk path position rewrite).formVerdicts
      rewrite.after = _ := Step.formVerdicts_of_codeRules rfl rfl _
  have verdicts' : (Step.ofRewrite settings'.risk path' position' rewrite').formVerdicts
      rewrite.after = _ := Step.formVerdicts_of_codeRules rfl original.symm _
  refine ⟨rewrite.pattern, among, rewrite'.pattern, among', rewrite.before, rewrite.after,
    ⟨rfl, rfl⟩, ⟨rfl, rfl⟩, fun free free' => ?_, ?_⟩
  · rw [verdicts, verdicts', if_neg free, if_neg free']
    exact ⟨rfl, rfl⟩
  · rw [verdicts, verdicts']
    by_cases json : rewrite.pattern.matcher.source = jsonSubject <;>
      by_cases json' : rewrite'.pattern.matcher.source = jsonSubject <;>
      simp [json, json', eq_comm]

def planFor (p : Pattern) (content : String) : Except EngineError Plan :=
  build "m" ⟨0, 0⟩ {} { files := .ofList [(⟨"a.js"⟩, content)] : Memory } [p]
    { source := "1", target := "2", move := .architectureRefactor }

theorem respelled_pattern_same_verdict :
    ∃ plan plan', planFor (.replacing "p" "var" "let (") "var a" = .ok plan ∧
      planFor (.replacing "p" "var a" "let ( a") "var a" = .ok plan' ∧
      ∃ s ∈ plan.steps, ∃ s' ∈ plan'.steps, s.transformed = some "let ( a" ∧
        s.formVerdicts "let ( a" = [some "unclosed '('"] ∧
        s'.formVerdicts "let ( a" = [some "unclosed '('"] := by
  obtain ⟨plan, built⟩ : ∃ plan, planFor (.replacing "p" "var" "let (") "var a" = .ok plan :=
    ⟨_, rfl⟩
  obtain ⟨plan', built'⟩ : ∃ plan', planFor (.replacing "p" "var a" "let ( a") "var a" =
    .ok plan' := ⟨_, rfl⟩
  have facts : ∀ plan ∈ (planFor (.replacing "p" "var" "let (") "var a").toOption,
      ∃ s ∈ plan.steps, s.kind = .codeTransformation ∧ s.original = some "var a" ∧
        s.transformed = some "let ( a" := by
    decide +kernel
  have facts' : ∀ plan ∈ (planFor (.replacing "p" "var a" "let ( a") "var a").toOption,
      ∃ s ∈ plan.steps, s.kind = .codeTransformation ∧ s.original = some "var a" ∧
        s.transformed = some "let ( a" := by
    decide +kernel
  obtain ⟨s, member, code, original, transformed⟩ := facts plan (by rw [built]; rfl)
  obtain ⟨s', member', code', original', transformed'⟩ := facts' plan' (by rw [built']; rfl)
  obtain ⟨p, among, p', among', before, after, -, ⟨before_eq, after_eq⟩, free, -⟩ :=
    form_verdicts_agree_iff built built' member member' code code'
      (original.trans original'.symm) (transformed.trans transformed'.symm)
  cases List.mem_singleton.mp among
  cases List.mem_singleton.mp among'
  cases original.symm.trans before_eq
  cases transformed.symm.trans after_eq
  have unbalanced : balanceVerdict "var a" "let ( a" = some "unclosed '('" := by decide +kernel
  obtain ⟨verdicts, verdicts'⟩ := free (by decide) (by decide)
  rw [unbalanced] at verdicts verdicts'
  exact ⟨plan, plan', built, built', s, member, s', member', transformed, verdicts, verdicts'⟩

/-- A pattern whose source is the reserved subject has its step judged as a document, another one
that makes the same of the same content does not. -/
theorem reserved_source_changes_verdict :
    ∃ plan plan', planFor (.replacing "p" "json" "JSON") "json;" = .ok plan ∧
      planFor (.replacing "p" "json;" "JSON;") "json;" = .ok plan' ∧
      plan.steps.map (fun s => (s.original, s.transformed, s.formVerdicts "JSON;")) =
        [(some "json;", some "JSON;", [some "invalid JSON: expected value at line 1 column 1"])] ∧
      plan'.steps.map (fun s => (s.original, s.transformed, s.formVerdicts "JSON;")) =
        [(some "json;", some "JSON;", [none])] := by
  refine ⟨_, _, rfl, rfl, ?_⟩
  decide +kernel

end Plan

end Uplift
