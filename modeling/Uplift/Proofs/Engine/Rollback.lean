import Uplift.Proofs.Engine.Operations
import Uplift.Proofs.Run.DryRun
import Uplift.Proofs.Run.Restoration

/-!
# Rolling a finished run back

A run that keeps its records can be undone later: unwinding its stack brings back the files
as they were before the first step (`run_restorable`). What an event can do to an engine is
said once (`step_cases`). Events of other migrations leave one as it is (`after_sameFor`), and
behind its rollback a migration is spent: until it is executed again every rollback of it does
nothing, whatever else happens to the engine (`Spent.after`).
-/

namespace Uplift

/-! ### Runs that keep their records -/

namespace Execution

variable {c : Collaborators Memory} {k : Conditions Memory} {plan : Plan} {b : Bench Memory}

/-- Dry or not, unwinding the stack of a run between two steps would undo its steps. -/
theorem between_underway (stay : c.StayOnPath) (fresh : b.undo.stack plan.id = []) (n : Nat) :
    Underway plan (prepare c k plan b).2.bench.settle.store (between c k plan b n) := by
  have begun := prepare_underway_of_fresh c k fresh
  cases dry : plan.request.dryRun with
  | true =>
    have own : (prepare c k plan b).2.run.plan.request.dryRun = true := by
      rw [begun.ownPlan, dry]
    exact begun.booked (attemptAll_dry own _)
  | false => exact attemptAll_underway stay dry begun _

theorem run_restorable (stay : c.StayOnPath) (calm : ∀ m, (c.tests m).after = m)
    (fresh : b.undo.stack plan.id = []) (keeps : plan.request.rollback = true)
    (stands : (run c k plan b).1.status ≠ .rolledBack) :
    (prepare c k plan b).2.bench.settle.store.Agrees
      ((run c k plan b).2.settle.store.restoreAll ((run c k plan b).2.undo.stack plan.id)) := by
  have underway := between_underway (k := k) stay fresh plan.steps.length
  obtain ⟨-, -, undo, ending, dropped⟩ := run_ending c k plan b
  rw [keeps, if_neg (by simpa using stands)] at dropped
  cases ending with
  | undone _ ends => exact absurd ends stands
  | failed _ left kept =>
    rw [dropped, kept, left]
    exact underway.undoes
  | completed _ _ _ left kept =>
    rw [calm, or_self] at left
    rw [dropped, kept, left]
    exact underway.undoes

end Execution

namespace Engine

/-! ### Events -/

inductive Event (σ : Type) where
  | edit (f : σ → σ)
  | execute (now : Timestamp) (plan : Plan) (cancelled : Nat → σ → Bool)
  | rollBack (now : Timestamp) (id : String)
  | addPattern (p : Pattern)
  | removePattern (id : String)

namespace Event

variable {σ : Type}

def Executes (id : String) : Event σ → Prop
  | execute _ plan _ => plan.id = id
  | edit _ | rollBack .. | addPattern _ | removePattern _ => False

/-- A rollback goes by the id of the result that it finds in the engine. -/
def RollsBack (e : Engine σ) (id : String) : Event σ → Prop
  | rollBack _ any => ∃ run, e.result? any = some run ∧ run.id = id
  | edit _ | execute .. | addPattern _ | removePattern _ => False

end Event

section Histories

variable {σ : Type} {e e₁ : Engine σ} {id : String}

/-- For the migration `id` nothing differs: neither its result, nor that it is idle, nor what
could be undone. -/
structure SameFor (id : String) (e e₁ : Engine σ) : Prop where
  result : e₁.result? id = e.result? id
  idle : e₁.isActive id = e.isActive id
  stack : e₁.bench.undo.stack id = e.bench.undo.stack id

theorem SameFor.refl (id : String) (e : Engine σ) : SameFor id e e := ⟨rfl, rfl, rfl⟩

theorem SameFor.trans {e₂ : Engine σ} (h : SameFor id e e₁) (h' : SameFor id e₁ e₂) :
    SameFor id e e₂ :=
  ⟨h'.result.trans h.result, h'.idle.trans h.idle, h'.stack.trans h.stack⟩

theorem SameFor.of_kept (results : e₁.results = e.results) (active : e₁.active = e.active)
    (undo : e₁.bench.undo = e.bench.undo) : SameFor id e e₁ := by
  refine ⟨?_, ?_, ?_⟩
  · rw [result?, results, result?]
  · rw [isActive, active, isActive]
  · rw [undo]

structure Spent (id : String) (e : Engine σ) : Prop where
  known : (e.result? id).isSome = true
  idle : e.isActive id = false
  empty : e.bench.undo.stack id = []

theorem Spent.of_sameFor (spent : e.Spent id) (same : SameFor id e e₁) : e₁.Spent id :=
  ⟨same.result ▸ spent.known, same.idle.trans spent.idle, same.stack.trans spent.empty⟩

variable [FileStore σ]

/-- The engine after an event; what it refuses to do changes nothing. -/
def step (e : Engine σ) : Event σ → Engine σ
  | .edit f => e.modifyStore f
  | .execute now plan cancelled =>
    match e.execute now plan cancelled with
    | .ok (_, e) => e
    | .error _ => e
  | .rollBack now id =>
    match e.rollback now id with
    | .ok (_, e) => e
    | .error _ => e
  | .addPattern p =>
    match e.addPattern p with
    | .ok e => e
    | .error _ => e
  | .removePattern id =>
    match e.removePattern id with
    | .ok (_, e) => e
    | .error _ => e

def after (e : Engine σ) (events : List (Event σ)) : Engine σ := events.foldl step e

def executed? (e : Engine σ) (id : String) : Event σ → Option Run
  | .execute now plan cancelled =>
    if plan.id = id then (e.execute now plan cancelled).toOption.map (·.1) else none
  | .edit _ | .rollBack .. | .addPattern _ | .removePattern _ => none

/-- What comes of an event: results, activity and records stay, or the event is an execution that
was let in or a rollback that found something to undo. -/
inductive StepOutcome (e : Engine σ) : Event σ → Engine σ → Prop
  | kept {event : Event σ} {e₁ : Engine σ} (results : e₁.results = e.results)
      (active : e₁.active = e.active) (undo : e₁.bench.undo = e.bench.undo)
      (silent : ∀ id, e.executed? id event = none) : StepOutcome e event e₁
  | executed {now : Timestamp} {plan : Plan} {cancelled : Nat → σ → Bool} {run : Run}
      {e₁ : Engine σ} (ran : e.execute now plan cancelled = .ok (run, e₁)) :
      StepOutcome e (.execute now plan cancelled) e₁
  | undone {now : Timestamp} {any : String} {run : Run} {e₁ : Engine σ}
      (known : e.result? any = some run)
      (results : e₁.results = e.results.insert any (e.undone now run).run)
      (active : e₁.active = e.active)
      (undo : e₁.bench.undo = (e.bench.undo.discard run.id).discard any) :
      StepOutcome e (.rollBack now any) e₁

theorem step_cases (e : Engine σ) (event : Event σ) : StepOutcome e event (e.step event) := by
  cases event with
  | edit f => exact .kept rfl rfl rfl fun _ => rfl
  | execute now plan cancelled =>
    dsimp only [step]
    split
    · rename_i ran
      exact .executed ran
    · rename_i refused
      exact .kept rfl rfl rfl fun id => by simp [executed?, refused, Except.toOption]
  | rollBack now any =>
    dsimp only [step]
    split
    · rename_i ran
      rcases rollback_cases ran with ⟨-, rfl⟩ | ⟨-, run, known, results, active, undo⟩
      · exact .kept rfl rfl rfl fun _ => rfl
      · exact .undone known results active undo
    · exact .kept rfl rfl rfl fun _ => rfl
  | addPattern p =>
    dsimp only [step, addPattern]
    cases e.catalog.register p <;> exact .kept rfl rfl rfl fun _ => rfl
  | removePattern any =>
    dsimp only [step, removePattern]
    cases e.catalog.remove any <;> exact .kept rfl rfl rfl fun _ => rfl

theorem SameFor.of_executed {now : Timestamp} {plan : Plan} {cancelled : Nat → σ → Bool} {run : Run}
    (ran : e.execute now plan cancelled = .ok (run, e₁)) (different : id ≠ plan.id) :
    SameFor id e e₁ :=
  have done := execute_ok ran
  ⟨done.result?_other different, done.isActive_other different, done.stack_other different⟩

theorem step_sameFor {event : Event σ} (own : ∃ run, e.result? id = some run ∧ run.id = id)
    (others : ¬event.Executes id) (apart : ¬event.RollsBack e id) : SameFor id e (e.step event) := by
  have outcome := e.step_cases event
  generalize e.step event = e₁ at outcome
  cases outcome with
  | kept results active undo => exact .of_kept results active undo
  | executed ran => exact .of_executed ran fun same => others same.symm
  | @undone now any run _ known results active undo =>
    have otherKey : id ≠ any := by
      rintro rfl
      exact apart own
    have otherRun : id ≠ run.id := fun same => apart ⟨run, known, same.symm⟩
    refine ⟨?_, ?_, ?_⟩
    · rw [result?, results, Keyed.get?_insert_other otherKey]
      rfl
    · rw [isActive, active, isActive]
    · rw [undo, UndoStacks.stack_discard_other otherKey, UndoStacks.stack_discard_other otherRun]

/-- No event but an execution of its plan brings up a result that goes by the id. -/
theorem Event.RollsBack.of_step {event later : Event σ} (others : ¬event.Executes id)
    (rolls : later.RollsBack (e.step event) id) : later.RollsBack e id := by
  cases later with
  | edit | execute | addPattern | removePattern => cases rolls
  | rollBack moment key =>
    obtain ⟨run, found, own⟩ := rolls
    have outcome := e.step_cases event
    generalize e.step event = e₁ at found outcome
    cases outcome with
    | kept results =>
      rw [result?, results] at found
      exact ⟨run, found, own⟩
    | @executed now plan cancelled _ _ ran =>
      by_cases same : key = plan.id
      · rw [same, (execute_ok ran).result?_self] at found
        cases found
        exact absurd ((execute_id ran).symm.trans own) others
      · exact ⟨run, ((execute_ok ran).result?_other same).symm.trans found, own⟩
    | @undone now any before _ known results =>
      rw [result?, results] at found
      by_cases same : key = any
      · rw [same, Keyed.get?_insert_self] at found
        cases found
        exact ⟨before, same ▸ known, (undone_effects e now before).1.id.symm.trans own⟩
      · exact ⟨run, (Keyed.get?_insert_other same ..).symm.trans found, own⟩

theorem after_sameFor {events : List (Event σ)}
    (own : ∃ run, e.result? id = some run ∧ run.id = id)
    (apart : ∀ event ∈ events, ¬event.Executes id ∧ ¬event.RollsBack e id) :
    SameFor id e (e.after events) := by
  induction events generalizing e with
  | nil => exact .refl id e
  | cons event rest ih =>
    obtain ⟨⟨others, stays⟩, further⟩ := List.forall_mem_cons.mp apart
    have same := step_sameFor own others stays
    have still : ∃ run, (e.step event).result? id = some run ∧ run.id = id := by
      rw [same.result]
      exact own
    refine same.trans (ih still fun event member => ?_)
    obtain ⟨others', stays'⟩ := further event member
    exact ⟨others', fun rolls => stays' (rolls.of_step others)⟩

/-! ### Spent migrations -/

theorem Spent.rollback (spent : e.Spent id) (now : Timestamp) :
    e.rollback now id = .ok (false, e) := by
  obtain ⟨run, known⟩ := Option.isSome_iff_exists.mp spent.known
  exact rollback_of_no_records now spent.idle known
    (UndoStacks.hasRecords_eq_false.mpr spent.empty)

theorem Spent.step (spent : e.Spent id) {event : Event σ} (others : ¬event.Executes id) :
    (e.step event).Spent id := by
  have outcome := e.step_cases event
  generalize e.step event = e₁ at outcome
  cases outcome with
  | kept results active undo => exact spent.of_sameFor (.of_kept results active undo)
  | executed ran => exact spent.of_sameFor (.of_executed ran fun same => others same.symm)
  | @undone now any run _ known results active undo =>
    refine ⟨?_, ?_, ?_⟩
    · rw [result?, results]
      by_cases same : id = any
      · rw [same, Keyed.get?_insert_self]
        rfl
      · rw [Keyed.get?_insert_other same]
        exact spent.known
    · rw [isActive, active]
      exact spent.idle
    · rw [undo]
      exact UndoStacks.stack_discard_of_empty
        (UndoStacks.stack_discard_of_empty spent.empty run.id) any

theorem Spent.after {events : List (Event σ)} (spent : e.Spent id)
    (others : ∀ event ∈ events, ¬event.Executes id) : (e.after events).Spent id := by
  induction events generalizing e with
  | nil => exact spent
  | cons event rest ih =>
    exact ih (spent.step (others event List.mem_cons_self))
      fun event member => others event (List.mem_cons_of_mem _ member)

end Histories

/-! ### Rolling back once -/

theorem restoreAll_of_rollback {e : Engine Memory} (now : Timestamp) {id : String} {run : Run}
    (idle : e.isActive id = false) (known : e.result? id = some run) (own : run.id = id) :
    ∃ e', e.rollback now id = .ok (e.bench.undo.hasRecords id, e') ∧
      e'.bench.settle.store.Agrees (e.bench.settle.store.restoreAll (e.bench.undo.stack id)) ∧
      e'.Spent id ∧ (e.bench.undo.hasRecords id = true →
        e'.result? id = some (e.undone now run).run) := by
  cases records : e.bench.undo.hasRecords id with
  | false =>
    have empty := UndoStacks.hasRecords_eq_false.mp records
    refine ⟨e, rollback_of_no_records now idle known records, ?_, ⟨by rw [known]; rfl, idle, empty⟩,
      by simp⟩
    rw [empty]
    exact .refl _
  | true =>
    obtain ⟨e', rolled, results, others, store, undo⟩ := rollback_of_records now idle known records
    obtain ⟨-, -, restored, emptied⟩ := undone_effects e now run
    have stored : e'.result? id = some (e.undone now run).run := by
      unfold result?
      rw [results]
      exact Keyed.get?_insert_self ..
    refine ⟨e', rolled, ?_, ⟨by rw [stored]; rfl, ?_, ?_⟩, fun _ => stored⟩
    · rw [store, restored, own, Memory.store_unwindRecords]
      exact .refl _
    · unfold isActive
      rw [others]
      exact idle
    · rw [undo]
      exact UndoStacks.stack_discard _ id

theorem status_undone {σ : Type} [FileStore σ] (e : Engine σ) (now : Timestamp) {run : Run}
    (ended : run.status = .completed ∨ run.status = .failed) :
    (e.undone now run).run.status = .rolledBack := by
  refine Execution.status_unwind _ ?_
  rcases ended with completed | failed
  · exact completed ▸ rfl
  · exact failed ▸ rfl

/-- What a run leaves in its engine: its result, and records that would bring back the files
that got no backup copy. -/
theorem execute_restorable {policy : ExecutionPolicy} {tests : Call Memory TestReport}
    {v : Validator} (calm : ∀ m, (tests m).after = m) {e e' : Engine Memory}
    (own : e.collaborators = { Collaborators.standard policy tests with validator := v })
    {now : Timestamp} {plan : Plan} {cancelled : Nat → Memory → Bool} {run : Run}
    (fresh : e.bench.undo.stack plan.id = []) (keeps : plan.request.rollback = true)
    (executed : e.execute now plan cancelled = .ok (run, e')) (stands : run.status ≠ .rolledBack) :
    run.id = plan.id ∧ run.outcome.canRollBack = e'.bench.undo.hasRecords plan.id ∧
      ∀ q, ¬Backup.IsDestination policy.backupDir plan q →
        (e'.bench.settle.store.restoreAll (e'.bench.undo.stack plan.id)).get? q =
          e.bench.settle.store.get? q := by
  have ran := (execute_ok executed).ran
  rw [own] at ran
  have stay := Collaborators.standard_stayOnPath policy tests v
  have restorable := Execution.run_restorable (k := e.conditions now cancelled)
    (b := e.freshBench) stay calm fresh keeps
  obtain ⟨-, records, -⟩ := Execution.run_ending
    { Collaborators.standard policy tests with validator := v } (e.conditions now cancelled) plan
    e.freshBench
  rw [← ran] at records restorable
  refine ⟨execute_id executed, records, fun q spared => ?_⟩
  exact ((restorable stands).contents q).trans (Execution.get?_prepare tests v _ spared)

/-- A finished run that kept its records can be rolled back if and only if its result says so.
The rollback brings back every file that got no backup copy, whatever happened to other migrations
since the run, and as long as the plan is not executed again no later rollback does anything. -/
theorem rollback_restores_once (policy : ExecutionPolicy) (tests : Call Memory TestReport)
    (v : Validator) (calm : ∀ m, (tests m).after = m) {e e' : Engine Memory}
    (own : e.collaborators = { Collaborators.standard policy tests with validator := v })
    {now : Timestamp} {plan : Plan} {cancelled : Nat → Memory → Bool} {run : Run}
    (fresh : e.bench.undo.stack plan.id = []) (keeps : plan.request.rollback = true)
    (executed : e.execute now plan cancelled = .ok (run, e'))
    (ended : run.status = .completed ∨ run.status = .failed)
    (events : List (Event Memory))
    (apart : ∀ event ∈ events, ¬event.Executes plan.id ∧ ¬event.RollsBack e' plan.id)
    (unchanged : e'.bench.settle.store.Agrees (e'.after events).bench.settle.store)
    (moment : Timestamp) :
    e'.result? plan.id = some run ∧
    ∃ e'', (e'.after events).rollback moment plan.id = .ok (run.outcome.canRollBack, e'') ∧
      (∀ q, ¬Backup.IsDestination policy.backupDir plan q →
        e''.bench.settle.store.get? q = e.bench.settle.store.get? q) ∧
      (run.outcome.canRollBack = true → ∃ undone, e''.result? plan.id = some undone ∧
        undone.status = .rolledBack ∧ undone.outcome.canRollBack = false) ∧
      ∀ later, (∀ event ∈ later, ¬event.Executes plan.id) → ∀ moment,
        (e''.after later).rollback moment plan.id = .ok (false, e''.after later) := by
  have stands : run.status ≠ .rolledBack := by
    rcases ended with completed | failed
    · rw [completed]
      decide
    · rw [failed]
      decide
  have done := execute_ok executed
  obtain ⟨ownId, records, restores⟩ := execute_restorable calm own fresh keeps executed stands
  have same := after_sameFor ⟨run, done.result?_self, ownId⟩ apart
  obtain ⟨e'', rolled, agrees, spent, stored⟩ := restoreAll_of_rollback moment
    (same.idle.trans done.isActive_self) (same.result.trans done.result?_self) ownId
  -- nothing that happened since the run was about this migration
  have available : (e'.after events).bench.undo.hasRecords plan.id = run.outcome.canRollBack := by
    rw [records, UndoStacks.hasRecords, UndoStacks.depth, same.stack]
    rfl
  rw [available] at rolled stored
  refine ⟨done.result?_self, e'', rolled, fun q spared => ?_, fun can => ?_,
    fun later others moment => (spent.after others).rollback moment⟩
  · rw [← agrees.contents q, same.stack, ← restores q spared]
    exact (Memory.restoreAll_agrees unchanged _).contents q
  · exact ⟨_, stored can, status_undone _ moment ended, (undone_effects _ moment run).2.1⟩

/-- A step that comes through, one that meets other content than it was planned for, and one
that takes a file away. -/
def mixedSteps : Plan where
  id := "m"
  request := { source := "1", target := "2" }
  risk := { backups := [⟨"a.js"⟩, ⟨"b.js"⟩] }
  steps := [
    { id := ⟨"1"⟩, kind := .codeTransformation, path := ⟨"a.js"⟩, original := some "var a;",
      transformed := some "let a;" },
    { id := ⟨"2"⟩, kind := .codeTransformation, path := ⟨"a.js"⟩, original := some "var a;",
      transformed := some "const a;" },
    { id := ⟨"3"⟩, kind := .fileOperation, path := ⟨"./src//b.js"⟩ }]

def mixedEngine : Engine Memory where
  catalog := {}
  collaborators := Collaborators.standard {}
  settings := {}
  bench := {
    store := { files := [(⟨"a.js"⟩, "var a;"), (⟨"./src/b.js"⟩, "b")], readOnly := [⟨"c.js"⟩] } }

theorem mixedSteps_rolled_back :
    ∃ run e', mixedEngine.execute ⟨0, 0⟩ mixedSteps = .ok (run, e') ∧ run.status = .completed ∧
      run.execution.failed = [⟨"2"⟩] ∧
      ∃ e'', e'.rollback ⟨0, 0⟩ "m" = .ok (true, e'') ∧
        e''.bench.settle.store.get? ⟨"a.js"⟩ = some "var a;" ∧
        e''.bench.settle.store.get? ⟨"./src/b.js"⟩ = some "b" ∧
        let edited := e''.modifyStore (·.insert ⟨"a.js"⟩ "by hand")
        edited.rollback ⟨1, 0⟩ "m" = .ok (false, edited) := by
  obtain ⟨run, e', executed⟩ : ∃ run e', mixedEngine.execute ⟨0, 0⟩ mixedSteps = .ok (run, e') :=
    ⟨_, _, rfl⟩
  have ran : run = _ := congrArg Prod.fst (execute_ok executed).ran
  have completed : run.status = .completed := by
    rw [ran]
    decide
  have available : run.outcome.canRollBack = true := by
    rw [ran]
    decide
  obtain ⟨-, e'', rolled, files, -, spent⟩ := rollback_restores_once {}
    (Collaborators.fixedTests {}) Validator.builtin (fun _ => rfl) rfl rfl rfl executed
    (Or.inl completed) [] (by simp) (.refl _) ⟨0, 0⟩
  rw [available] at rolled
  refine ⟨run, e', executed, completed, ?_, e'', rolled, (files ⟨"a.js"⟩ ?_).trans (by decide),
    (files ⟨"./src/b.js"⟩ ?_).trans (by decide), ?_⟩
  · rw [ran]
    decide
  · decide
  · decide
  · exact spent [.edit (·.insert ⟨"a.js"⟩ "by hand")] (by simp [Event.Executes]) ⟨1, 0⟩

end Engine

end Uplift
