import Uplift.Collaborator.Standard
import Uplift.Proofs.Files.Writing
import Uplift.Proofs.Run.Trials

/-!
# Rules are checked on what is stored

A step whose call came through (`Step.Wrote`) is checked on a content that it either wrote
itself or reads back. In a faithful store both are what the file holds at that moment
(`stored_of_outcome`). So a step that comes through leaves a content that no rule of error
severity refuses, and one that fails behind its write left a content that some such rule
refuses, or could not read it back (`run_checks_what_is_stored`).
-/

namespace Uplift

/-! ### Rules -/

namespace Validator

variable {v : Validator} {s : Step} {content : String}

def Accepts (v : Validator) (s : Step) (content : String) : Prop :=
  ∀ rule ∈ s.rules, rule.severity = .error → v s content rule = none

instance (v : Validator) (s : Step) (content : String) : Decidable (v.Accepts s content) :=
  inferInstanceAs (Decidable (∀ rule ∈ s.rules, rule.severity = .error → v s content rule = none))

def remark? (v : Validator) (s : Step) (content : String) (rule : Rule) : Option Diagnostic :=
  if rule.severity = .error then none
  else (v s content rule).map fun message => ⟨s.id, rule.check, rule.severity, message⟩

def remarks (v : Validator) (s : Step) (content : String) : List Diagnostic :=
  s.rules.filterMap (v.remark? s content)

theorem checkRules_of_accepted {rules : List Rule}
    (accepted : ∀ rule ∈ rules, rule.severity = .error → v s content rule = none) :
    v.checkRules s content rules = .ok (rules.filterMap (v.remark? s content)) := by
  induction rules with
  | nil => rfl
  | cons rule rest ih =>
    rw [List.forall_mem_cons] at accepted
    rw [checkRules, ih accepted.2, List.filterMap_cons, remark?]
    cases violated : v s content rule with
    | none => simp
    | some message =>
      have mild : ¬rule.severity = .error := fun severe => by
        rw [accepted.1 severe] at violated
        cases violated
      simp [mild, Except.map]

theorem checkRules_of_refused {rules : List Rule}
    (refused : ∃ rule ∈ rules, rule.severity = .error ∧ v s content rule ≠ none) :
    ∃ violation, v.checkRules s content rules = .error violation := by
  induction rules with
  | nil => simp at refused
  | cons rule rest ih =>
    obtain ⟨culprit, member, severe, violates⟩ := refused
    rw [checkRules]
    rcases List.mem_cons.mp member with rfl | later
    · cases violated : v s content culprit with
      | none => exact absurd violated violates
      | some message => exact ⟨_, if_pos severe⟩
    · obtain ⟨violation, ends⟩ := ih ⟨culprit, later, severe, violates⟩
      rw [ends]
      cases v s content rule with
      | none => exact ⟨violation, rfl⟩
      | some message => by_cases own : rule.severity = .error <;> simp [own, Except.map]

end Validator

theorem Step.check_of_accepted {v : Validator} {s : Step} {content : String}
    (accepted : v.Accepts s content) : s.check v (some content) = .ok (v.remarks s content) := by
  rw [check, Validator.checkStep, Validator.checkRules_of_accepted accepted]
  rfl

theorem Step.check_of_refused {v : Validator} {s : Step} {content : String}
    (refused : ¬v.Accepts s content) : ∃ e, s.check v (some content) = .error e := by
  simp only [Validator.Accepts, Classical.not_forall] at refused
  obtain ⟨rule, member, severe, violated⟩ := refused
  obtain ⟨violation, ends⟩ := Validator.checkRules_of_refused ⟨rule, member, severe, violated⟩
  rw [check, Validator.checkStep, ends]
  exact ⟨_, rfl⟩

/-! ### Steps -/

namespace Step

variable {σ : Type} [FileStore σ] {c : Collaborators σ} {k : Conditions σ} {id : String}
  {s : Step} {b b' after : Bench σ}

theorem run_of_wrote (wrote : s.Wrote c k id b after) :
    (s.run c k id false b).1 =
      match (outcome k s after).1 with
      | .error e => .error (s.failure e)
      | .ok content => s.check c.validator content := by
  obtain ⟨writes, current, read, call, found, fresh, acts, done⟩ := wrote
  rw [run, if_neg Bool.false_ne_true, if_pos writes, found]
  dsimp only
  rw [fresh, if_neg Bool.false_ne_true, runRecorded, apply, acts]
  dsimp only
  rw [perform, done]
  dsimp only
  rcases outcome k s after with ⟨read | content, b₁⟩
  · rfl
  · dsimp only
    cases s.check c.validator content <;> rfl

theorem action_of_direct (direct : s.isReadBack = false) {call : Call σ Unit}
    (acts : s.action c = .ok (some call)) : call = .put s.path s.transformed := by
  unfold isReadBack at direct
  unfold action at acts
  split at acts <;> simp_all

theorem stored_of_outcome [FileStore.Faithful σ] (wrote : s.Wrote c k id b after)
    {content : Option String} (read : outcome k s after = (.ok content, b')) :
    FileStore.read? after.settle.store s.path = .ok content ∧
      b'.settle.store = after.settle.store := by
  unfold outcome at read
  split at read
  · have store := Bench.store_settle_call k (Call.readCurrent s.path) after
    rw [read] at store
    exact ⟨Call.readCurrent_ok read, store⟩
  · rename_i direct
    obtain ⟨-, current, found, call, -, -, acts, done⟩ := wrote
    obtain rfl := action_of_direct (Bool.eq_false_iff.mpr direct) acts
    cases read
    exact ⟨FileStore.read?_of_put (Call.put_of_call_ok done), rfl⟩

/-- Behind its call a step fails if the content that stands there is refused, or cannot be read
back. -/
theorem fails_iff_of_wrote [FileStore.Faithful σ] (wrote : s.Wrote c k id b after) :
    (s.run c k id false b).1.isOk = false ↔
      (∃ content, FileStore.read? after.settle.store s.path = .ok (some content) ∧
          ¬c.validator.Accepts s content) ∨
        s.isReadBack = true ∧ ∃ e, (after.call k (.readCurrent s.path)).1 = .error e := by
  rw [run_of_wrote wrote]
  rcases read : outcome k s after with ⟨e | content, b'⟩
  · -- only reading back can fail here
    have failed : s.isReadBack = true ∧ ∃ e, (after.call k (.readCurrent s.path)).1 = .error e := by
      unfold outcome at read
      split at read
      · rename_i readBack
        exact ⟨readBack, e, congrArg Prod.fst read⟩
      · cases read
    simp only [Except.isOk, Except.toBool, true_iff]
    exact .inr failed
  · obtain ⟨stored, -⟩ := stored_of_outcome wrote read
    have readable : ¬(s.isReadBack = true ∧
        ∃ e, (after.call k (.readCurrent s.path)).1 = .error e) := by
      rintro ⟨readBack, e, failed⟩
      rw [outcome, if_pos readBack] at read
      rw [read] at failed
      cases failed
    simp only [stored, readable, or_false]
    cases content with
    | none => simp [check, Validator.checkStep, Except.isOk, Except.toBool]
    | some text =>
      by_cases accepted : c.validator.Accepts s text
      · simp [check_of_accepted accepted, accepted, Except.isOk, Except.toBool]
      · obtain ⟨e, refused⟩ := check_of_refused accepted
        simp [refused, accepted, Except.isOk, Except.toBool]

/-- A step that wrote a file and came through left a content that its rules let through, and
all they said about it is what it reports. -/
theorem accepted_of_passed [FileStore.Faithful σ] (writes : s.writesFile = true)
    {diagnostics : List Diagnostic} (ran : s.run c k id false b = (.ok diagnostics, b'))
    {content : String} (stored : FileStore.read? b'.settle.store s.path = .ok (some content)) :
    c.validator.Accepts s content ∧ diagnostics = c.validator.remarks s content := by
  obtain ⟨after, checkedContent, wrote, read, checked⟩ := wrote_of_passed writes ran
  obtain ⟨left, same⟩ := stored_of_outcome wrote read
  rw [same, left] at stored
  obtain rfl := Except.ok.inj stored
  by_cases accepted : c.validator.Accepts s content
  · rw [check_of_accepted accepted] at checked
    exact ⟨accepted, (Except.ok.inj checked).symm⟩
  · obtain ⟨e, refused⟩ := check_of_refused accepted
    rw [refused] at checked
    cases checked

end Step

namespace Execution

variable {σ : Type} [FileStore σ] {c : Collaborators σ} {k : Conditions σ} {plan : Plan}
  {b : Bench σ}

theorem between_succ {n : Nat} {s : Step} (next : (stepsBegun c k plan b)[n]? = some s) :
    between c k plan b (n + 1) = attempt c k (between c k plan b n) s := by
  unfold between attemptAll
  rw [List.take_add_one, next, List.foldl_append]
  rfl

/-- In a run that is not dry, take a step that is tried, at any place of the plan. If the step
writes a file, is counted as completed and leaves a content in its file, then no rule of error
severity refuses that content, and the warnings that the step adds are what its other rules say
about it. If its call comes through, the step is counted as failed exactly if such a rule
refuses what the call left in the file, or reading the file back fails. -/
theorem run_checks_what_is_stored [FileStore.Faithful σ] (c : Collaborators σ) (k : Conditions σ)
    (plan : Plan) (b : Bench σ) (real : plan.request.dryRun = false) {n : Nat} {s : Step}
    (next : (stepsBegun c k plan b)[n]? = some s)
    (attempted : (trial? c k (between c k plan b n) s).isSome = true) :
    let p := between c k plan b n
    let p' := between c k plan b (n + 1)
    (p'.run.execution.completed = p.run.execution.completed ++ [s.id] → s.writesFile = true →
        ∀ content, FileStore.read? p'.bench.settle.store s.path = .ok (some content) →
          c.validator.Accepts s content ∧
            p'.run.execution.warnings = p.run.execution.warnings ++
              (c.validator.remarks s content).map Diagnostic.render) ∧
      ∀ after, s.Wrote c k plan.id p.bench after →
        (p'.run.execution.failed = p.run.execution.failed ++ [s.id] ↔
          (∃ content, FileStore.read? after.settle.store s.path = .ok (some content) ∧
              ¬c.validator.Accepts s content) ∨
            s.isReadBack = true ∧ ∃ e, (after.call k (.readCurrent s.path)).1 = .error e) := by
  intro p p'
  have runs : p.Runs plan := between_runs c k plan b n
  have advanced : p' = attempt c k p s := between_succ next
  have tried := attempt_bench (c := c) (k := k) runs s
  rw [real] at tried
  obtain ⟨untried, -⟩ | ⟨trial, left⟩ := tried
  · rw [untried] at attempted
    cases attempted
  have accounts := attempt_accounts c k p s
  rw [trial] at accounts
  rw [advanced, left, accounts.completed, accounts.failed, accounts.warnings]
  refine ⟨fun completed writes content stored => ?_, fun after wrote => ?_⟩
  · rcases ran : s.run c k plan.id false p.bench with ⟨e | diagnostics, behind⟩
    · simp [ran] at completed
    · rw [ran] at stored
      obtain ⟨accepted, rfl⟩ := Step.accepted_of_passed writes ran stored
      refine ⟨accepted, ?_⟩
      simp [Trial.warnings]
  · rw [← Step.fails_iff_of_wrote wrote]
    rcases s.run c k plan.id false p.bench with ⟨e | diagnostics, behind⟩ <;>
      simp [Except.isOk, Except.toBool]

def scriptedProject : Bench Disk where
  store := {
    root := ⟨"/project"⟩
    entries := [(["package.json"],
      .file (.text "\x7b\"scripts\": \x7b\"a\": \"eval(1)\"\x7d\x7d"))] }

/-- The manifest gets a package, and a file gets a content that is no JSON. -/
def scriptedPlan : Plan where
  id := "m"
  request := { source := "1", target := "2", backup := false }
  steps := [
    { id := ⟨"1"⟩, kind := .dependencyUpdate, path := ⟨"package.json"⟩,
      dependencies := ["left@1"],
      rules := [⟨.form, Validator.jsonSubject, .error⟩, ⟨.security, "dangerous-apis", .warning⟩] },
    { id := ⟨"2"⟩, kind := .fileOperation, path := ⟨"data.json"⟩, transformed := some "\x7b",
      rules := [⟨.form, Validator.jsonSubject, .error⟩] }]

/-- The updated manifest is accepted as it stands on the disk, with a warning; the other content
is refused after it was written. -/
theorem scripted_run_checked :
    let c := Collaborators.standard {}
    let p := between c { deadline := 10 } scriptedPlan scriptedProject
    (∃ content, FileStore.read? (p 1).bench.settle.store ⟨"package.json"⟩ = .ok (some content) ∧
        Validator.builtin.Accepts scriptedPlan.steps[0] content) ∧
      (p 1).run.execution.warnings = ["step 1: security warning: introduces eval("] ∧
      (p 2).run.execution.failed = (p 1).run.execution.failed ++ [⟨"2"⟩] := by
  intro c p
  let k : Conditions Disk := { deadline := 10 }
  let manifest := "\x7b\n  \"dependencies\": \x7b\n    \"left\": \"^1\"\n  \x7d,\n" ++
    "  \"scripts\": \x7b\n    \"a\": \"eval(1)\"\n  \x7d\n\x7d\n"
  let broken := scriptedPlan.steps[1]
  let found := (p 1).bench.call k (.readCurrent broken.path)
  let put := { found.2 with undo := found.2.undo.push "m" ⟨broken.id, broken.path, none⟩ }.call k
    (.put broken.path broken.transformed)
  obtain ⟨begun, ⟨first, completed, read, said⟩, second, missing, done, left, refused⟩ :
      stepsBegun c k scriptedPlan scriptedProject = scriptedPlan.steps ∧
        ((trial? c k (p 0) scriptedPlan.steps[0]).isSome = true ∧
          (p 1).run.execution.completed = (p 0).run.execution.completed ++ [⟨"1"⟩] ∧
          (FileStore.read? (p 1).bench.settle.store ⟨"package.json"⟩).toOption =
            some (some manifest) ∧
          (p 0).run.execution.warnings ++ (Validator.builtin.remarks scriptedPlan.steps[0]
            manifest).map Diagnostic.render = ["step 1: security warning: introduces eval("]) ∧
        (trial? c k (p 1) broken).isSome = true ∧ found.1.toOption = some none ∧
        put.1.toOption = some () ∧
        (FileStore.read? put.2.settle.store broken.path).toOption = some broken.transformed ∧
        ¬Validator.builtin.Accepts broken "\x7b" := by
    decide +kernel
  have wrote : broken.Wrote c k "m" (p 1).bench put.2 :=
    ⟨rfl, none, found.2, _, Prod.ext (ok_of_toOption missing) rfl, rfl, rfl,
      Prod.ext (ok_of_toOption done) rfl⟩
  have law {n : Nat} {s : Step} :=
    run_checks_what_is_stored c k scriptedPlan scriptedProject rfl (n := n) (s := s)
  -- from here on the run is given by these facts alone
  have same : between c k scriptedPlan scriptedProject = p := rfl
  rw [same, begun] at law
  clear same
  clear_value found put p
  obtain ⟨passes, -⟩ := law (n := 0) rfl first
  obtain ⟨-, fails⟩ := law (n := 1) rfl second
  have stored := ok_of_toOption read
  obtain ⟨accepted, warned⟩ := passes completed rfl _ stored
  refine ⟨⟨_, stored, accepted⟩, warned.trans said, (fails _ wrote).mpr (.inl ?_)⟩
  exact ⟨_, ok_of_toOption left, refused⟩

end Execution

end Uplift
