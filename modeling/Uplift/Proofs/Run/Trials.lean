import Uplift.Proofs.Run.Completion

/-!
# Trials

A step is tried unless the run has ended or is cancelled before it. `trials` lists the steps
that are tried in a row of attempts, with what came of each, and `interrupted?` the step
before which the run was cancelled. All that the attempts write down can be read off these
two (`attemptAll_accounts`).
-/

namespace Uplift

variable {σ : Type}

structure Trial where
  step : Step
  result : Except StepError (List Diagnostic)

namespace Trial

def passed (t : Trial) : Bool := t.result.isOk

@[simp] theorem passed_ok (s : Step) (diagnostics : List Diagnostic) :
    passed ⟨s, .ok diagnostics⟩ = true := rfl

@[simp] theorem passed_error (s : Step) (e : StepError) : passed ⟨s, .error e⟩ = false := rfl

/-- Whether the trial ends its run: the step failed, and its risk is high or critical. -/
def aborts (t : Trial) : Bool := !t.passed && t.step.risk.aborts

@[simp] theorem aborts_ok (s : Step) (diagnostics : List Diagnostic) :
    aborts ⟨s, .ok diagnostics⟩ = false := rfl

@[simp] theorem aborts_error (s : Step) (e : StepError) :
    aborts ⟨s, .error e⟩ = s.risk.aborts := rfl

def error? (t : Trial) : Option String :=
  match t.result with
  | .ok _ => none
  | .error e => some e.message

def warnings (t : Trial) : List String :=
  match t.result with
  | .ok diagnostics => diagnostics.map Diagnostic.render
  | .error e =>
    let text := s!"Step {t.step.id} failed ({t.step.risk.label} risk)"
    if t.step.risk.aborts then [] else [s!"{text}, continuing: {e.message}"]

end Trial

def Step.cancellation (s : Step) : String := s!"Migration cancelled before step {s.id}"

/-- From `p` to `p'` a run has written down the trials, and then the cancellation if there
was one. -/
structure Progress.Accounts (tried : List Trial) (stop : Option Step) (p p' : Progress σ) :
    Prop where
  plan : p'.run.plan = p.run.plan
  completed : p'.run.execution.completed =
    p.run.execution.completed ++ (tried.filter (·.passed)).map (·.step.id)
  failed : p'.run.execution.failed =
    p.run.execution.failed ++ (tried.filter (!·.passed)).map (·.step.id)
  warnings : p'.run.execution.warnings =
    p.run.execution.warnings ++ tried.flatMap Trial.warnings
  errors : p'.run.execution.errors =
    p.run.execution.errors ++ (tried.filterMap Trial.error? ++
      (stop.map Step.cancellation).toList)
  outcome : p'.run.outcome = { p.run.outcome with
    changes := p.run.outcome.changes +
      if p.run.plan.request.dryRun then 0 else (tried.filter (·.passed)).length }
  aborted : p'.aborted = (p.aborted || tried.any (·.aborts) || stop.isSome)

namespace Progress.Accounts

theorem refl (p : Progress σ) : Accounts [] none p p := by
  refine ⟨rfl, ?_, ?_, ?_, ?_, ?_, ?_⟩ <;> simp

theorem of_bench {tried : List Trial} {stop : Option Step} {p p' : Progress σ} {b : Bench σ}
    (h : Accounts tried stop { p with bench := b } p') : Accounts tried stop p p' :=
  ⟨h.plan, h.completed, h.failed, h.warnings, h.errors, h.outcome, h.aborted⟩

theorem trans {tried more : List Trial} {stop : Option Step} {p p' p'' : Progress σ}
    (h : Accounts tried none p p') (h' : Accounts more stop p' p'') :
    Accounts (tried ++ more) stop p p'' := by
  refine ⟨h'.plan.trans h.plan, ?_, ?_, ?_, ?_, ?_, ?_⟩
  · rw [h'.completed, h.completed, List.filter_append, List.map_append, List.append_assoc]
  · rw [h'.failed, h.failed, List.filter_append, List.map_append, List.append_assoc]
  · rw [h'.warnings, h.warnings, List.flatMap_append, List.append_assoc]
  · rw [h'.errors, h.errors, List.filterMap_append]
    simp only [Option.map_none, Option.toList_none, List.append_nil, List.append_assoc]
  · rw [h'.outcome, h.outcome, h.plan, List.filter_append, List.length_append]
    split <;> simp [Nat.add_assoc]
  · rw [h'.aborted, h.aborted, List.any_append]
    simp [Bool.or_assoc]

end Progress.Accounts

namespace Execution

/-! ### One attempt -/

theorem passed_accounts (k : Conditions σ) (s : Step) (diagnostics : List Diagnostic)
    (p : Progress σ) :
    Progress.Accounts [⟨s, .ok diagnostics⟩] none p (passed k s diagnostics p) := by
  unfold passed
  dsimp only
  rw [foldl_warn]
  split
  · rename_i dry
    refine ⟨rfl, rfl, (List.append_nil _).symm, ?_, (List.append_nil _).symm, ?_, ?_⟩
    · rw [List.flatMap_singleton]
      rfl
    · rw [show p.run.plan.request.dryRun = true from dry]
      rfl
    · show p.aborted = _
      simp
  · rename_i real
    refine ⟨rfl, rfl, (List.append_nil _).symm, ?_, (List.append_nil _).symm, ?_, ?_⟩
    · rw [List.flatMap_singleton]
      rfl
    · rw [show p.run.plan.request.dryRun = false from Bool.eq_false_iff.mpr real]
      rfl
    · show p.aborted = _
      simp

theorem stumbled_accounts (k : Conditions σ) (s : Step) (e : StepError) (p : Progress σ) :
    Progress.Accounts [⟨s, .error e⟩] none p (stumbled k s e p) := by
  have aborted : (stumbled k s e p).aborted = (p.aborted || [⟨s, .error e⟩].any Trial.aborts ||
      (none : Option Step).isSome) := by
    rw [aborted_stumbled]
    simp [Bool.or_comm]
  have unchanged : p.run.outcome = { p.run.outcome with
      changes := p.run.outcome.changes +
        if p.run.plan.request.dryRun then 0
        else ([⟨s, .error e⟩].filter Trial.passed).length } := by
    simp
  unfold stumbled at aborted ⊢
  dsimp only at aborted ⊢
  split
  · rename_i aborts
    rw [if_pos aborts] at aborted
    refine ⟨rfl, (List.append_nil _).symm, rfl, ?_, rfl, unchanged, aborted⟩
    have silent : Trial.warnings ⟨s, .error e⟩ = [] := if_pos aborts
    rw [List.flatMap_singleton, silent]
    exact (List.append_nil _).symm
  · rename_i goesOn
    rw [if_neg goesOn] at aborted
    refine ⟨rfl, (List.append_nil _).symm, rfl, ?_, rfl, unchanged, aborted⟩
    have told : Trial.warnings ⟨s, .error e⟩ = _ := if_neg goesOn
    rw [List.flatMap_singleton, told]
    rfl

theorem cancel_accounts (k : Conditions σ) (s : Step) (p : Progress σ) :
    Progress.Accounts [] (some s) p (cancel k s p) := by
  refine ⟨rfl, (List.append_nil _).symm, (List.append_nil _).symm, (List.append_nil _).symm, rfl,
    ?_, ?_⟩
  · simp [cancel, Progress.abort, Progress.log, Run.log, Progress.addError, Run.addError]
  · simp [cancel, Progress.abort]

variable [FileStore σ] {c : Collaborators σ} {k : Conditions σ} {p : Progress σ} {s : Step}

def trial? (c : Collaborators σ) (k : Conditions σ) (p : Progress σ) (s : Step) : Option Trial :=
  if p.aborted then none
  else if k.cancelled p.attempted p.bench.store then none
  else some ⟨s, (s.run c k p.run.id p.run.plan.request.dryRun p.bench).1⟩

def interruption? (k : Conditions σ) (p : Progress σ) (s : Step) : Option Step :=
  if p.aborted then none
  else if k.cancelled p.attempted p.bench.store then some s
  else none

theorem attempt_accounts (c : Collaborators σ) (k : Conditions σ) (p : Progress σ) (s : Step) :
    Progress.Accounts (trial? c k p s).toList (interruption? k p s) p (attempt c k p s) := by
  unfold trial? interruption? attempt
  split
  · exact .refl p
  · split
    · exact cancel_accounts k s p
    · rcases s.run c k p.run.id p.run.plan.request.dryRun p.bench with ⟨result, after⟩
      cases result with
      | ok diagnostics => exact (passed_accounts k s diagnostics _).of_bench
      | error e => exact (stumbled_accounts k s e _).of_bench

theorem attempt_bench {plan : Plan} (runs : p.Runs plan) (s : Step) :
    let ran := s.run c k plan.id plan.request.dryRun p.bench
    (trial? c k p s = none ∧ (attempt c k p s).bench = p.bench) ∨
      (trial? c k p s = some ⟨s, ran.1⟩ ∧ (attempt c k p s).bench = ran.2) := by
  unfold trial? attempt
  rw [runs.id, runs.plan]
  split
  · exact .inl ⟨rfl, rfl⟩
  · split
    · exact .inl ⟨rfl, (cancel_booked k s p).bench⟩
    · refine .inr ⟨rfl, ?_⟩
      rcases s.run c k plan.id plan.request.dryRun p.bench with ⟨e | diagnostics, after⟩
      · exact (stumbled_booked k s e _).bench
      · exact (passed_booked k s diagnostics _).bench

/-! ### Attempts in a row -/

def trials (c : Collaborators σ) (k : Conditions σ) (p : Progress σ) : List Step → List Trial
  | [] => []
  | s :: rest => (trial? c k p s).toList ++ trials c k (attempt c k p s) rest

def interrupted? (c : Collaborators σ) (k : Conditions σ) (p : Progress σ) :
    List Step → Option Step
  | [] => none
  | s :: rest => (interruption? k p s).or (interrupted? c k (attempt c k p s) rest)

theorem trials_of_aborted (aborted : p.aborted = true) (steps : List Step) :
    trials c k p steps = [] ∧ interrupted? c k p steps = none := by
  induction steps with
  | nil => exact ⟨rfl, rfl⟩
  | cons s rest ih =>
    have none : trial? c k p s = none := if_pos aborted
    have same : interruption? k p s = Option.none := if_pos aborted
    rw [trials, interrupted?, attempt_of_aborted aborted, ih.1, ih.2, none, same]
    exact ⟨rfl, rfl⟩

theorem attemptAll_accounts (c : Collaborators σ) (k : Conditions σ) (p : Progress σ)
    (steps : List Step) :
    Progress.Accounts (trials c k p steps) (interrupted? c k p steps) p
      (attemptAll c k steps p) := by
  induction steps generalizing p with
  | nil => exact .refl p
  | cons s rest ih =>
    have first := attempt_accounts c k p s
    have unfolded : attemptAll c k (s :: rest) p = attemptAll c k rest (attempt c k p s) := rfl
    rw [unfolded, trials, interrupted?]
    cases stop : interruption? k p s with
    | none =>
      rw [stop] at first
      exact first.trans (ih _)
    | some before =>
      -- the run has ended, so there is nothing to add to what the attempt wrote down
      rw [stop] at first
      have aborted : (attempt c k p s).aborted = true := by
        rw [first.aborted]
        exact Bool.or_true _
      rw [attemptAll_of_aborted aborted, (trials_of_aborted aborted rest).1, List.append_nil]
      exact first

/-! ### The course of a run -/

/-- How attempts at steps in a row can go: up to the end, up to a failure that ends the run,
or up to a cancellation before a step. -/
inductive Course : List Step → List Trial → Option Step → Prop
  | through : Course [] [] none
  | cancelled (s : Step) (rest : List Step) : Course (s :: rest) [] (some s)
  | aborted (t : Trial) (rest : List Step) (aborts : t.aborts = true) :
      Course (t.step :: rest) [t] none
  | tried {rest : List Step} {later : List Trial} {stop : Option Step} (t : Trial)
      (goesOn : t.aborts = false) (others : Course rest later stop) :
      Course (t.step :: rest) (t :: later) stop

theorem trials_course (running : p.aborted = false) (steps : List Step) :
    Course steps (trials c k p steps) (interrupted? c k p steps) := by
  induction steps generalizing p with
  | nil => exact .through
  | cons s rest ih =>
    have accounts := attempt_accounts c k p s
    rw [trials, interrupted?]
    unfold trial? interruption? at accounts ⊢
    rw [running, if_neg Bool.false_ne_true, if_neg Bool.false_ne_true] at accounts ⊢
    by_cases asked : k.cancelled p.attempted p.bench.store = true
    · rw [if_pos asked, if_pos asked] at accounts ⊢
      have aborted : (attempt c k p s).aborted = true := by
        rw [accounts.aborted]
        exact Bool.or_true _
      rw [(trials_of_aborted aborted rest).1]
      exact .cancelled s rest
    · rw [if_neg asked, if_neg asked] at accounts ⊢
      generalize result : (s.run c k p.run.id p.run.plan.request.dryRun p.bench).1 = r at accounts ⊢
      have ends : (attempt c k p s).aborted = Trial.aborts ⟨s, r⟩ := by
        rw [accounts.aborted, running]
        simp
      cases aborts : Trial.aborts ⟨s, r⟩ with
      | true =>
        obtain ⟨none, calm⟩ := trials_of_aborted (c := c) (k := k) (ends.trans aborts) rest
        rw [none, calm]
        exact .aborted ⟨s, r⟩ rest aborts
      | false => exact .tried ⟨s, r⟩ aborts (ih (ends.trans aborts))

namespace Course

variable {steps : List Step} {tried : List Trial} {stop : Option Step}

theorem isPrefix (course : Course steps tried stop) :
    tried.map (·.step) ++ stop.toList <+: steps := by
  induction course with
  | through => exact List.prefix_refl []
  | cancelled s rest => exact ⟨rest, rfl⟩
  | aborted t rest => exact ⟨rest, rfl⟩
  | tried t _ _ ih => exact List.cons_prefix_cons.mpr ⟨rfl, ih⟩

theorem complete (course : Course steps tried stop) (calm : ∀ t ∈ tried, t.aborts = false)
    (uncancelled : stop = none) : tried.map (·.step) = steps := by
  induction course with
  | through => rfl
  | cancelled s rest => cases uncancelled
  | aborted t rest aborts =>
    rw [calm t List.mem_cons_self] at aborts
    cases aborts
  | tried t _ _ ih =>
    rw [List.map_cons, ih (fun t member => calm t (List.mem_cons_of_mem _ member)) uncancelled]

theorem goesOn_dropLast (course : Course steps tried stop) :
    ∀ t ∈ tried.dropLast, t.aborts = false := by
  induction course with
  | through | cancelled => simp
  | aborted => simp
  | @tried _ later _ t goesOn _ ih =>
    intro other member
    cases later with
    | nil => cases member
    | cons next rest =>
      rcases List.mem_cons.mp member with rfl | among
      · exact goesOn
      · exact ih other among

end Course

end Execution

end Uplift
