import Mathlib.Logic.Function.Basic
import Uplift.Files.Walk
import Uplift.Proofs.Engine.Rollback
import Uplift.Proofs.Unwinding

/-!
# Rollbacks that overlap

A rollback does not count as active, so a second one of the same migration may run beside it. The
calls take their turns (`Engine.advance`), and between the turn in which a call takes a record and
the turn in which it restores it the other call may restore older ones. Alone, a call comes to what
`Engine.rollback` does in one go (`advances_called`). Two that overlap bring back the files in
every order of turns exactly if each record holds what its path should get back
(`overlap_restores_iff`): the record that is restored last need not be the oldest one.
-/

namespace Uplift

namespace Execution

def noteFailures (time : Timestamp) (failures : List UndoFailure) (r : Run) : Run :=
  failures.foldl (fun r f => r.log time s!"Rollback: {f.message}") r

def reported (time : Timestamp) (report : UndoReport) (r : Run) : Run :=
  let r := noteFailures time report.failures r
  let r := r.log time (s!"Rolled back {report.restored.length} steps " ++
    s!"({report.failures.length} failed restores)")
  let r := (r.become .rolledBack).2
  { r with outcome := { r.outcome with canRollBack := false } }

theorem id_reported (time : Timestamp) (report : UndoReport) (r : Run) :
    (reported time report r).id = r.id := by
  have noted : ∀ (failures : List UndoFailure) (r : Run),
      (noteFailures time failures r).id = r.id := by
    intro failures
    induction failures with
    | nil => exact fun _ => rfl
    | cons f rest ih => exact fun r => ih _
  exact noted report.failures r

theorem unwind_eq_reported {σ : Type} [FileStore σ] (k : Conditions σ) (p : Progress σ) :
    let unwound := p.bench.undo.unwind p.run.id p.bench.settle.store
    (unwind k p).bench = { p.bench.settle with undo := unwound.2.1, store := unwound.2.2 } ∧
      (unwind k p).run = reported (p.bench.time k) unwound.1 p.run := by
  have noted : ∀ (failures : List UndoFailure) (p : Progress σ),
      failures.foldl (fun p f => p.log k s!"Rollback: {f.message}") p =
        { p with run := noteFailures (p.bench.time k) failures p.run } := by
    intro failures
    induction failures with
    | nil => exact fun _ => rfl
    | cons f rest ih => exact fun p => ih _
  unfold unwind
  dsimp only
  rw [noted]
  exact ⟨rfl, rfl⟩

end Execution

namespace Engine

/-! ### Turns -/

inductive Stage where
  | called
  | admitted
  | found (run : Run)
  | settling (run : Run)
  | popping (run : Run) (report : UndoReport)
  | restoring (run : Run) (report : UndoReport) (r : UndoRecord)
  | discarding (run : Run)
  | storing (run : Run)
  | returned (answer : Except EngineError Bool)

/-- The record that was taken and is still to be restored. -/
def Stage.held? : Stage → Option UndoRecord
  | restoring _ _ r => some r
  | called | admitted | found _ | settling _ | popping .. | discarding _ | storing _ |
    returned _ => none

section
variable {σ : Type} [FileStore σ]

def advance (now : Timestamp) (id : String) (e : Engine σ) : Stage → Engine σ × Stage
  | .called =>
    if e.isActive id then (e, .returned (.error (.alreadyRunning id))) else (e, .admitted)
  | .admitted =>
    match e.result? id with
    | none => (e, .returned (.error (.notFound id)))
    | some run => (e, .found run)
  | .found run =>
    -- a rollback makes no calls, so its clock stays where it starts
    if e.bench.undo.hasRecords id then
      (e, .settling (run.log (now.addMillis 0) "Manual rollback requested"))
    else (e, .returned (.ok false))
  | .settling run => ({ e with bench := e.freshBench.settle }, .popping run {})
  | .popping run report =>
    match e.bench.undo.pop? run.id with
    | some (r, undo) =>
      ({ e with bench := { e.bench with undo := undo } }, .restoring run report r)
    | none => (e, .discarding (Execution.reported (now.addMillis 0) report run))
  | .restoring run report r =>
    let restored := UndoStacks.restoreFirst r e.bench.store
    ({ e with bench := { e.bench with store := restored.2 } },
      .popping run (report.followedBy restored.1))
  | .discarding run =>
    ({ e with bench := { e.bench with undo := e.bench.undo.discard id } }, .storing run)
  | .storing run => ({ e with results := e.results.insert id run }, .returned (.ok true))
  | .returned answer => (e, .returned answer)

/-- An engine with two rollbacks of a migration under way. -/
structure Overlap (σ : Type) where
  engine : Engine σ
  stage : Bool → Stage

namespace Overlap

def begin (e : Engine σ) : Overlap σ := { engine := e, stage := fun _ => .called }

def turn (now : Timestamp) (id : String) (o : Overlap σ) (call : Bool) : Overlap σ :=
  let advanced := o.engine.advance now id (o.stage call)
  { engine := advanced.1, stage := Function.update o.stage call advanced.2 }

def turns (now : Timestamp) (id : String) (o : Overlap σ) (schedule : List Bool) : Overlap σ :=
  schedule.foldl (turn now id) o

def Returned (o : Overlap σ) : Prop := ∀ call, ∃ answer, o.stage call = .returned answer

end Overlap

/-! ### One call alone -/

def advances (now : Timestamp) (id : String) : Nat → Engine σ × Stage → Engine σ × Stage
  | 0, state => state
  | n + 1, state => advances now id n (state.1.advance now id state.2)

theorem turns_replicate (now : Timestamp) (id : String) (o : Overlap σ) (call : Bool) (n : Nat) :
    o.turns now id (List.replicate n call) =
      let alone := advances now id n (o.engine, o.stage call)
      { engine := alone.1, stage := Function.update o.stage call alone.2 } := by
  induction n generalizing o with
  | zero => simp [advances, Overlap.turns]
  | succ n ih =>
    have first : o.turns now id (List.replicate (n + 1) call) =
        (o.turn now id call).turns now id (List.replicate n call) := rfl
    rw [first, ih]
    simp [advances, Overlap.turn]

variable {id : String} {e : Engine σ} {run : Run}

theorem advance_popping (now : Timestamp) {r : UndoRecord} {rest : List UndoRecord}
    (own : run.id = id) (read : e.bench.undo.stack id = r :: rest) (report : UndoReport) :
    e.advance now id (.popping run report) =
      ({ e with bench := { e.bench with undo := e.bench.undo.setStack id rest } },
        .restoring run report r) := by
  have popped : e.bench.undo.pop? run.id = some (r, e.bench.undo.setStack id rest) := by
    rw [own, UndoStacks.pop?, read]
  simp only [advance, popped]

theorem advance_popping_empty (now : Timestamp) (own : run.id = id)
    (read : e.bench.undo.stack id = []) (report : UndoReport) :
    e.advance now id (.popping run report) =
      (e, .discarding (Execution.reported (now.addMillis 0) report run)) := by
  have popped : e.bench.undo.pop? run.id = none := by rw [own, UndoStacks.pop?, read]
  simp only [advance, popped]

theorem advances_popping (now : Timestamp) (own : run.id = id) (e : Engine σ)
    (report : UndoReport) :
    ∃ n, advances now id n (e, .popping run report) =
      let unwound := e.bench.undo.unwind id e.bench.store
      ({ e with
          bench := { e.bench with undo := e.bench.undo.discard id, store := unwound.2.2 }
          results := e.results.insert id
            (Execution.reported (now.addMillis 0) (report.followedBy unwound.1) run) },
        .returned (.ok true)) := by
  induction read : e.bench.undo.stack id generalizing e report with
  | nil =>
    refine ⟨3, ?_⟩
    rw [advances, advance_popping_empty now own read, UndoStacks.unwind_of_empty read]
    dsimp only
    rw [UndoReport.followedBy_empty]
    rfl
  | cons r rest ih =>
    let popped := e.bench.undo.setStack id rest
    let first := UndoStacks.restoreFirst r e.bench.store
    have left : popped.stack id = rest := UndoStacks.stack_setStack e.bench.undo id rest
    obtain ⟨n, done⟩ := ih { e with bench := { e.bench with undo := popped, store := first.2 } }
      (report.followedBy first.1) left
    refine ⟨n + 2, ?_⟩
    have taken : e.bench.undo.pop? id = some (r, popped) := by rw [UndoStacks.pop?, read]
    have begun : advances now id (n + 2) (e, .popping run report) = advances now id n
        ({ e with bench := { e.bench with undo := popped, store := first.2 } },
          .popping run (report.followedBy first.1)) := by
      rw [advances, advance_popping now own read]
      rfl
    rw [begun, done, UndoStacks.unwind_of_pop? taken]
    simp only [UndoReport.followedBy_assoc, popped, first, UndoStacks.discard_setStack]

theorem undone_eq (e : Engine σ) (now : Timestamp) (run : Run) :
    let unwound := e.bench.undo.unwind run.id e.bench.settle.store
    (e.undone now run).bench =
        { e.freshBench.settle with undo := unwound.2.1, store := unwound.2.2 } ∧
      (e.undone now run).run = Execution.reported (now.addMillis 0) unwound.1
        (run.log (now.addMillis 0) "Manual rollback requested") :=
  Execution.unwind_eq_reported (e.conditions now fun _ _ => false)
    (Progress.log (e.conditions now fun _ _ => false) "Manual rollback requested"
      { bench := e.freshBench, run := run })

theorem rollback_eq_unwind (now : Timestamp) (own : run.id = id) (idle : e.isActive id = false)
    (known : e.result? id = some run) (records : e.bench.undo.hasRecords id = true) :
    let unwound := e.bench.undo.unwind id e.bench.settle.store
    e.rollback now id = .ok (true, { e with
      bench := { e.freshBench.settle with undo := e.bench.undo.discard id, store := unwound.2.2 }
      results := e.results.insert id (Execution.reported (now.addMillis 0) unwound.1
        (run.log (now.addMillis 0) "Manual rollback requested")) }) := by
  have forgotten : (e.bench.undo.discard id).discard id = e.bench.undo.discard id :=
    Keyed.erase_erase id _
  have rolled : e.rollback now id = .ok (true, { e with
      bench := { (e.undone now run).bench with undo := (e.undone now run).bench.undo.discard id }
      results := e.results.insert id (e.undone now run).run }) := by
    unfold rollback
    rw [idle, known, records]
    rfl
  obtain ⟨bench, report⟩ := e.undone_eq now run
  rw [rolled, bench, report, own]
  dsimp only [UndoStacks.unwind]
  rw [forgotten]

/-- Turn by turn, a call that is alone does what a rollback does in one go. -/
theorem advances_called (now : Timestamp) (own : ∀ run, e.result? id = some run → run.id = id) :
    ∃ n, advances now id n (e, .called) =
      match e.rollback now id with
      | .ok (answer, after) => (after, .returned (.ok answer))
      | .error error => (e, .returned (.error error)) := by
  cases active : e.isActive id with
  | true => exact ⟨1, by simp [advances, advance, rollback, active]⟩
  | false =>
    cases stored : e.result? id with
    | none => exact ⟨2, by simp [advances, advance, rollback, active, stored]⟩
    | some run =>
      cases records : e.bench.undo.hasRecords id with
      | false => exact ⟨3, by simp [advances, advance, rollback, active, stored, records]⟩
      | true =>
        have own : run.id = id := own run stored
        let logged := run.log (now.addMillis 0) "Manual rollback requested"
        have kept : logged.id = id := own
        obtain ⟨n, done⟩ := advances_popping now kept
          { e with bench := e.freshBench.settle } {}
        refine ⟨n + 4, ?_⟩
        have begun : advances now id (n + 4) (e, .called) = advances now id n
            ({ e with bench := e.freshBench.settle }, .popping logged {}) := by
          simp [advances, advance, active, stored, records, logged]
        rw [begun, done]
        rw [rollback_eq_unwind now own active stored records]
        rfl

theorem advances_returns (now : Timestamp) (own : ∀ run, e.result? id = some run → run.id = id) :
    ∃ n answer, (advances now id n (e, .called)).2 = .returned answer := by
  obtain ⟨n, done⟩ := advances_called now own
  refine ⟨n, ?_⟩
  rw [done]
  cases e.rollback now id with
  | ok rolled => exact ⟨.ok rolled.1, rfl⟩
  | error error => exact ⟨.error error, rfl⟩

end

/-! ### What a turn can do -/

section Turns

variable {id : String} {e e' : Engine Memory} {stage stage' : Stage}
  {records : List UndoRecord} {o : Overlap Memory}

/-- The migration has ended, and nothing runs it again. -/
structure Ended (id : String) (e : Engine Memory) : Prop where
  idle : e.isActive id = false
  known : ∃ run, e.result? id = some run ∧ run.id = id

def Stage.Fits (id : String) (e : Engine Memory) : Stage → Prop
  | .called | .admitted => True
  | .found run | .settling run => run.id = id
  | .popping run _ | .restoring run _ _ => run.id = id ∧ e.bench.overdue = []
  | .discarding run | .storing run => run.id = id ∧ e.bench.undo.stack id = []
  | .returned _ => e.bench.undo.stack id = []

/-- A turn takes the newest record, restores the record that its call holds, or does neither. -/
inductive Effect (id : String) (e : Engine Memory) (stage : Stage) (e' : Engine Memory)
    (stage' : Stage) : Prop where
  | none (store : e'.bench.settle.store = e.bench.settle.store)
      (stack : e'.bench.undo.stack id = e.bench.undo.stack id) (free : stage.held? = .none)
      (free' : stage'.held? = .none)
  | took (r : UndoRecord) (store : e'.bench.settle.store = e.bench.settle.store)
      (stack : e.bench.undo.stack id = r :: e'.bench.undo.stack id) (free : stage.held? = .none)
      (held : stage'.held? = some r)
  | restored (r : UndoRecord)
      (store : e'.bench.settle.store = e.bench.settle.store.tryPut r.path r.content)
      (stack : e'.bench.undo.stack id = e.bench.undo.stack id) (held : stage.held? = some r)
      (free' : stage'.held? = .none)

structure Advanced (id : String) (e : Engine Memory) (stage : Stage) (e' : Engine Memory)
    (stage' : Stage) : Prop where
  ended : e'.Ended id
  fits : stage'.Fits id e'
  overdue : e.bench.overdue = [] → e'.bench.overdue = []
  effect : Effect id e stage e' stage'

theorem store_restoreFirst (r : UndoRecord) (m : Memory) :
    (UndoStacks.restoreFirst r m).2 = m.tryPut r.path r.content := by
  unfold UndoStacks.restoreFirst UndoRecord.restore Memory.tryPut
  cases FileStore.put m r.path r.content <;> rfl

theorem store_settle {b : Bench Memory} (none : b.overdue = []) : b.settle.store = b.store := by
  rw [Bench.settle, none]
  rfl

theorem advance_advanced (now : Timestamp) (ended : e.Ended id) (fits : stage.Fits id e) :
    Advanced id e stage (e.advance now id stage).1 (e.advance now id stage).2 := by
  cases stage with
  | called =>
    rw [advance, ended.idle]
    exact ⟨ended, trivial, fun none => none, .none rfl rfl rfl rfl⟩
  | admitted =>
    obtain ⟨run, known, own⟩ := ended.known
    rw [advance, known]
    exact ⟨ended, own, fun none => none, .none rfl rfl rfl rfl⟩
  | found run =>
    rw [advance]
    split
    · exact ⟨ended, fits, fun none => none, .none rfl rfl rfl rfl⟩
    · rename_i none
      have empty := UndoStacks.hasRecords_eq_false.mp (Bool.eq_false_iff.mpr none)
      exact ⟨ended, empty, fun none => none, .none rfl rfl rfl rfl⟩
  | settling run =>
    exact ⟨⟨ended.idle, ended.known⟩, ⟨fits, rfl⟩, fun _ => rfl, .none rfl rfl rfl rfl⟩
  | popping run report =>
    -- only this turn takes a record, and only an empty stack leads on
    obtain ⟨own, none⟩ := fits
    cases read : e.bench.undo.stack id with
    | nil =>
      rw [advance_popping_empty now own read]
      have own := (Execution.id_reported (now.addMillis 0) report run).trans own
      exact ⟨ended, ⟨own, read⟩, fun none => none, .none rfl rfl rfl rfl⟩
    | cons r rest =>
      rw [advance_popping now own read]
      refine ⟨⟨ended.idle, ended.known⟩, ⟨own, none⟩, fun none => none, .took r rfl ?_ rfl rfl⟩
      exact read.trans (congrArg (r :: ·) (UndoStacks.stack_setStack e.bench.undo id rest).symm)
  | restoring run report r =>
    obtain ⟨own, none⟩ := fits
    refine ⟨⟨ended.idle, ended.known⟩, ⟨own, none⟩, fun none => none, .restored r ?_ rfl rfl rfl⟩
    rw [store_settle none, ← store_restoreFirst r e.bench.store]
    exact store_settle none
  | discarding run =>
    obtain ⟨own, empty⟩ := fits
    have emptied := UndoStacks.stack_discard e.bench.undo id
    exact ⟨⟨ended.idle, ended.known⟩, ⟨own, emptied⟩, fun none => none,
      .none rfl (emptied.trans empty.symm) rfl rfl⟩
  | storing run =>
    obtain ⟨own, empty⟩ := fits
    exact ⟨⟨ended.idle, run, Keyed.get?_insert_self .., own⟩, empty, fun none => none,
      .none rfl rfl rfl rfl⟩
  | returned answer => exact ⟨ended, fits, fun none => none, .none rfl rfl rfl rfl⟩

theorem Effect.stack_subset (effect : Effect id e stage e' stage') {r : UndoRecord}
    (member : r ∈ e'.bench.undo.stack id) : r ∈ e.bench.undo.stack id := by
  cases effect with
  | none _ stack | restored _ _ stack =>
    rw [← stack]
    exact member
  | took newest _ stack =>
    rw [stack]
    exact List.mem_cons_of_mem _ member

theorem Effect.readOnly (effect : Effect id e stage e' stage') :
    e'.bench.settle.store.readOnly = e.bench.settle.store.readOnly := by
  cases effect with
  | none store | took _ store => rw [store]
  | restored r store => rw [store, Memory.readOnly_tryPut]

theorem Effect.keeps (effect : Effect id e stage e' stage')
    (writable : e.bench.settle.store.readOnly = []) {r : UndoRecord}
    (pending : r ∈ e.bench.undo.stack id ∨ stage.held? = some r) :
    r ∈ e'.bench.undo.stack id ∨ stage'.held? = some r ∨
      e'.bench.settle.store.get? r.path = r.content := by
  cases effect with
  | none _ stack free =>
    rcases pending with waits | held
    · exact .inl (stack ▸ waits)
    · rw [free] at held
      cases held
  | took newest _ stack free holds =>
    rcases pending with waits | held
    · rw [stack] at waits
      cases List.mem_cons.mp waits with
      | inl first => exact .inr (.inl (first ▸ holds))
      | inr later => exact .inl later
    · rw [free] at held
      cases held
  | restored newest store stack holds =>
    rcases pending with waits | held
    · exact .inl (stack ▸ waits)
    · rw [holds] at held
      cases held
      have allowed := Memory.denies_of_readOnly_nil writable r.path
      refine .inr (.inr ?_)
      rw [store, Memory.get?_tryPut, if_pos ⟨allowed, Path.same_refl _⟩]

theorem Effect.content (effect : Effect id e stage e' stage') (q : Path) :
    e'.bench.settle.store.get? q = e.bench.settle.store.get? q ∨
      ∃ r, stage.held? = some r ∧ r.path.same q = true ∧
        e'.bench.settle.store.get? q = r.content := by
  cases effect with
  | none store | took _ store => exact .inl (by rw [store])
  | restored r store _ holds =>
    rw [store, Memory.get?_tryPut]
    split
    · rename_i put
      exact .inr ⟨r, holds, Path.same_symm put.2, rfl⟩
    · exact .inl rfl

/-- The turn of a call leaves what the stage of the other call says. -/
theorem Advanced.fits_other (advanced : Advanced id e stage e' stage') {other : Stage}
    (fits : other.Fits id e) : other.Fits id e' := by
  have emptied : e.bench.undo.stack id = [] → e'.bench.undo.stack id = [] := by
    intro empty
    refine List.eq_nil_iff_forall_not_mem.mpr fun r member => ?_
    have standing := advanced.effect.stack_subset member
    rw [empty] at standing
    cases standing
  cases other with
  | called | admitted | found | settling => exact fits
  | popping run report | restoring run report r => exact ⟨fits.1, advanced.overdue fits.2⟩
  | discarding run | storing run => exact ⟨fits.1, emptied fits.2⟩
  | returned answer => exact emptied fits

/-! ### Two calls -/

theorem Overlap.stage_turn_self (o : Overlap Memory) (now : Timestamp) (id : String)
    (call : Bool) : (o.turn now id call).stage call = (o.engine.advance now id (o.stage call)).2 :=
  Function.update_self ..

theorem Overlap.stage_turn_other (o : Overlap Memory) (now : Timestamp) (id : String)
    {call other : Bool} (different : other ≠ call) :
    (o.turn now id call).stage other = o.stage other := Function.update_of_ne different ..

/-- A record waits or is held by a call, or its path holds what one of the records says. -/
def Overlap.Accounts (id : String) (records : List UndoRecord) (o : Overlap Memory)
    (r : UndoRecord) : Prop :=
  r ∈ o.engine.bench.undo.stack id ∨ (∃ call, (o.stage call).held? = some r) ∨
    ∃ last ∈ records, last.path.same r.path = true ∧
      o.engine.bench.settle.store.get? r.path = last.content

/-- What holds of two rollbacks in any state of theirs: no record is lost. -/
structure Overlap.Sound (id : String) (records : List UndoRecord) (o : Overlap Memory) : Prop where
  ended : o.engine.Ended id
  fits : ∀ call, (o.stage call).Fits id o.engine
  writable : o.engine.bench.settle.store.readOnly = []
  waiting : ∀ r ∈ o.engine.bench.undo.stack id, r ∈ records
  held : ∀ call r, (o.stage call).held? = some r → r ∈ records
  accounts : ∀ r ∈ records, o.Accounts id records r

theorem Overlap.sound_begin (ended : e.Ended id)
    (writable : e.bench.settle.store.readOnly = []) :
    (begin e).Sound id (e.bench.undo.stack id) :=
  ⟨ended, fun _ => trivial, writable, fun _ member => member, fun _ _ held => (nomatch held),
    fun _ member => .inl member⟩

theorem Overlap.Sound.advanced (sound : o.Sound id records) (now : Timestamp) (call : Bool) :
    Advanced id o.engine (o.stage call) (o.turn now id call).engine
      ((o.turn now id call).stage call) := by
  rw [o.stage_turn_self]
  exact advance_advanced now sound.ended (sound.fits call)

theorem Overlap.Sound.fits_turn (sound : o.Sound id records) (now : Timestamp) (call other : Bool) :
    ((o.turn now id call).stage other).Fits id (o.turn now id call).engine := by
  by_cases same : other = call
  · rw [same]
    exact (sound.advanced now call).fits
  · rw [o.stage_turn_other now id same]
    exact (sound.advanced now call).fits_other (sound.fits other)

theorem Overlap.Sound.held_turn (sound : o.Sound id records) (now : Timestamp) (call other : Bool)
    {r : UndoRecord} (held : ((o.turn now id call).stage other).held? = some r) : r ∈ records := by
  by_cases same : other = call
  · subst same
    cases (sound.advanced now other).effect with
    | none _ _ _ free | restored _ _ _ _ free =>
      rw [free] at held
      cases held
    | took newest _ stack _ holds =>
      rw [holds] at held
      cases held
      exact sound.waiting r (stack ▸ List.mem_cons_self)
  · rw [o.stage_turn_other now id same] at held
    exact sound.held other r held

theorem Overlap.Sound.accounts_turn (sound : o.Sound id records) (now : Timestamp) (call : Bool)
    {r : UndoRecord} (member : r ∈ records) : (o.turn now id call).Accounts id records r := by
  have effect := (sound.advanced now call).effect
  have pending : r ∈ o.engine.bench.undo.stack id ∨ (o.stage call).held? = some r →
      (o.turn now id call).Accounts id records r := by
    intro pending
    rcases effect.keeps sound.writable pending with waits | held | put
    · exact .inl waits
    · exact .inr (.inl ⟨call, held⟩)
    · exact .inr (.inr ⟨r, member, Path.same_refl _, put⟩)
  rcases sound.accounts r member with waits | ⟨other, held⟩ | ⟨last, among, same, content⟩
  · exact pending (.inl waits)
  · by_cases same : other = call
    · subst same
      exact pending (.inr held)
    · exact .inr (.inl ⟨other, (o.stage_turn_other now id same).symm ▸ held⟩)
  · rcases effect.content r.path with kept | ⟨newest, holds, same, put⟩
    · exact .inr (.inr ⟨last, among, same, kept.trans content⟩)
    · exact .inr (.inr ⟨newest, sound.held call newest holds, same, put⟩)

theorem Overlap.Sound.turn (sound : o.Sound id records) (now : Timestamp) (call : Bool) :
    (o.turn now id call).Sound id records where
  ended := (sound.advanced now call).ended
  fits := sound.fits_turn now call
  writable := (sound.advanced now call).effect.readOnly.trans sound.writable
  waiting r member := sound.waiting r ((sound.advanced now call).effect.stack_subset member)
  held other _ := sound.held_turn now call other
  accounts _ := sound.accounts_turn now call

theorem Overlap.Sound.turns (sound : o.Sound id records) (now : Timestamp)
    (schedule : List Bool) : (o.turns now id schedule).Sound id records := by
  induction schedule generalizing o with
  | nil => exact sound
  | cons call rest ih => exact ih (sound.turn now call)

theorem Overlap.Sound.contents (sound : o.Sound id records) (returned : o.Returned)
    {r : UndoRecord} (member : r ∈ records) :
    ∃ last ∈ records, last.path.same r.path = true ∧
      o.engine.bench.settle.store.get? r.path = last.content := by
  obtain ⟨answer, ended⟩ := returned true
  have empty : o.engine.bench.undo.stack id = [] := by
    have fits := sound.fits true
    rw [ended] at fits
    exact fits
  rcases sound.accounts r member with waits | ⟨call, held⟩ | done
  · rw [empty] at waits
    cases waits
  · obtain ⟨answer, ended⟩ := returned call
    rw [ended] at held
    cases held
  · exact done

/-! ### The last record -/

theorem advances_to (now : Timestamp) {run : Run} (own : run.id = id) {r : UndoRecord}
    {older : List UndoRecord} (newer : List UndoRecord) (e : Engine Memory) (report : UndoReport)
    (read : e.bench.undo.stack id = newer ++ r :: older) :
    ∃ n e' report', advances now id n (e, .popping run report) = (e', .restoring run report' r) ∧
      e'.bench.undo.stack id = older := by
  induction newer generalizing e report with
  | nil =>
    refine ⟨1, _, report, advance_popping now own read report, ?_⟩
    exact UndoStacks.stack_setStack e.bench.undo id older
  | cons newest rest ih =>
    let first := UndoStacks.restoreFirst newest e.bench.store
    let popped := e.bench.undo.setStack id (rest ++ r :: older)
    obtain ⟨n, e', report', done, left⟩ := ih
      { e with bench := { e.bench with undo := popped, store := first.2 } }
      (report.followedBy first.1) (UndoStacks.stack_setStack e.bench.undo id _)
    refine ⟨n + 2, e', report', ?_, left⟩
    rw [advances, advance_popping now own read]
    exact done

theorem advances_called_to (now : Timestamp) (ended : e.Ended id) {r : UndoRecord}
    (member : r ∈ e.bench.undo.stack id) :
    ∃ n e' run report, advances now id n (e, .called) = (e', .restoring run report r) := by
  obtain ⟨run, known, own⟩ := ended.known
  obtain ⟨newer, older, read⟩ := List.append_of_mem member
  have records : e.bench.undo.hasRecords id = true := by
    rw [UndoStacks.hasRecords, UndoStacks.depth, decide_eq_true_eq]
    exact List.length_pos_of_mem member
  let logged := run.log (now.addMillis 0) "Manual rollback requested"
  have kept : logged.id = id := own
  obtain ⟨n, e', report, done, -⟩ := advances_to now kept newer
    { e with bench := e.freshBench.settle } {} read
  refine ⟨n + 4, e', logged, report, ?_⟩
  rw [← done]
  simp [advances, advance, ended.idle, known, records, logged]

theorem advances_restoring (now : Timestamp) {run : Run} (own : run.id = id)
    (empty : e.bench.undo.stack id = []) (report : UndoReport) (r : UndoRecord) :
    let restored := UndoStacks.restoreFirst r e.bench.store
    advances now id 4 (e, .restoring run report r) =
      ({ e with
          bench := { e.bench with undo := e.bench.undo.discard id, store := restored.2 }
          results := e.results.insert id
            (Execution.reported (now.addMillis 0) (report.followedBy restored.1) run) },
        .returned (.ok true)) := by
  intro restored
  have ends := advance_popping_empty now
    (e := { e with bench := { e.bench with store := restored.2 } }) own empty
    (report.followedBy restored.1)
  change advances now id 3 (_, .popping run (report.followedBy restored.1)) = _
  rw [advances, ends]
  rfl

theorem Overlap.Sound.returns_alone (sound : o.Sound id records) (now : Timestamp) (call : Bool)
    (fresh : o.stage call = .called) :
    ∃ n answer, (o.turns now id (List.replicate n call)).stage call = .returned answer ∧
      ∀ other, other ≠ call →
        (o.turns now id (List.replicate n call)).stage other = o.stage other := by
  have own : ∀ run, o.engine.result? id = some run → run.id = id := by
    intro run stored
    obtain ⟨run, known, own⟩ := sound.ended.known
    rw [stored] at known
    cases known
    exact own
  obtain ⟨n, answer, returned⟩ := advances_returns now own
  refine ⟨n, answer, ?_, fun other different => ?_⟩
  · rw [turns_replicate, fresh, ← returned]
    exact Function.update_self ..
  · rw [turns_replicate]
    exact Function.update_of_ne different ..

/-- Behind a call that has returned, the other one restores what it holds, and that stays. -/
theorem Overlap.Sound.restores_held (sound : o.Sound id records) (now : Timestamp) {run : Run}
    {report : UndoReport} {r : UndoRecord} {answer : Except EngineError Bool}
    (holds : o.stage false = .restoring run report r) (ends : o.stage true = .returned answer) :
    (o.turns now id (List.replicate 4 false)).Returned ∧
      (o.turns now id (List.replicate 4 false)).engine.bench.settle.store.get? r.path =
        r.content := by
  have empty : o.engine.bench.undo.stack id = [] := by
    have fits := sound.fits true
    rw [ends] at fits
    exact fits
  obtain ⟨own, none⟩ : run.id = id ∧ o.engine.bench.overdue = [] := by
    have fits := sound.fits false
    rw [holds] at fits
    exact fits
  have last := turns_replicate now id o false 4
  rw [holds, advances_restoring now own empty] at last
  have left : (o.turns now id (List.replicate 4 false)).engine.bench.overdue = [] := by
    rw [last]
    exact none
  have store : (o.turns now id (List.replicate 4 false)).engine.bench.store =
      o.engine.bench.store.tryPut r.path r.content := by
    rw [last]
    exact store_restoreFirst r _
  constructor
  · rw [last]
    intro call
    cases call with
    | true => exact ⟨answer, ends⟩
    | false => exact ⟨.ok true, rfl⟩
  · have allowed : o.engine.bench.store.denies r.path = false :=
      Memory.denies_of_readOnly_nil (store_settle none ▸ sound.writable) r.path
    rw [store_settle left, store, Memory.get?_tryPut, if_pos ⟨allowed, Path.same_refl _⟩]

/-- Whichever record a call holds, the other call may be done before it is restored. -/
theorem exists_restored_last (now : Timestamp) (ended : e.Ended id)
    (writable : e.bench.settle.store.readOnly = []) {r : UndoRecord}
    (member : r ∈ e.bench.undo.stack id) :
    ∃ schedule, ((Overlap.begin e).turns now id schedule).Returned ∧
      ((Overlap.begin e).turns now id schedule).engine.bench.settle.store.get? r.path =
        r.content := by
  -- one call takes records until it holds this one, and the other comes to its end meanwhile
  obtain ⟨n₁, e₁, run, report, taken⟩ := advances_called_to now ended member
  let o₁ := (Overlap.begin e).turns now id (List.replicate n₁ false)
  have met : o₁.stage = Function.update (fun _ => .called) false (.restoring run report r) := by
    rw [show o₁ = _ from turns_replicate now id _ false n₁]
    simp only [Overlap.begin, taken]
  have sound₁ : o₁.Sound id _ := (Overlap.sound_begin ended writable).turns now _
  obtain ⟨n₂, answer, ends, others⟩ := sound₁.returns_alone now true (by simp [met])
  let o₂ := o₁.turns now id (List.replicate n₂ true)
  have holds : o₂.stage false = .restoring run report r := by
    rw [others false Bool.false_ne_true, met]
    exact Function.update_self ..
  have sound₂ : o₂.Sound id _ := sound₁.turns now _
  have restored := sound₂.restores_held now holds ends
  refine ⟨List.replicate n₁ false ++ (List.replicate n₂ true ++ List.replicate 4 false), ?_⟩
  rw [Overlap.turns, List.foldl_append, List.foldl_append]
  exact restored

/-- Two rollbacks that overlap leave at each path of the stack what some record of the path says,
and in every order of turns it is what stood there before exactly if all its records say so. -/
theorem overlap_restores_iff (now : Timestamp) {run : Run} (idle : e.isActive id = false)
    (known : e.result? id = some run) (own : run.id = id)
    (writable : e.bench.settle.store.readOnly = []) (before : Memory) :
    let records := e.bench.undo.stack id
    let rolledBack := fun schedule => (Overlap.begin e).turns now id schedule
    (∀ schedule, (rolledBack schedule).Returned → ∀ r ∈ records,
      ∃ last ∈ records, last.path.same r.path = true ∧
        (rolledBack schedule).engine.bench.settle.store.get? r.path = last.content) ∧
    ((∀ schedule, (rolledBack schedule).Returned → ∀ r ∈ records,
        (rolledBack schedule).engine.bench.settle.store.get? r.path = before.get? r.path) ↔
      ∀ r ∈ records, r.content = before.get? r.path) := by
  intro records rolledBack
  have ended : e.Ended id := ⟨idle, run, known, own⟩
  have contents : ∀ schedule, (rolledBack schedule).Returned → ∀ r ∈ records,
      ∃ last ∈ records, last.path.same r.path = true ∧
        (rolledBack schedule).engine.bench.settle.store.get? r.path = last.content :=
    fun schedule returned r member =>
      ((Overlap.sound_begin ended writable).turns now schedule).contents returned member
  refine ⟨contents, ?_, ?_⟩
  · intro restores r member
    obtain ⟨schedule, returned, last⟩ := exists_restored_last now ended writable member
    exact last.symm.trans (restores schedule returned r member)
  · intro faithful schedule returned r member
    obtain ⟨last, among, same, content⟩ := contents schedule returned r member
    rw [content, faithful last among, before.get?_congr same]

end Turns

def twoSteps (second : Path) : Plan where
  id := "m"
  request := { source := "1", target := "2", move := .architectureRefactor, backup := false }
  steps := [
    { id := ⟨"1"⟩, kind := .fileOperation, path := ⟨"a.js"⟩, transformed := some "two" },
    { id := ⟨"2"⟩, kind := .fileOperation, path := second, transformed := some "three" }]

def twoFiles : Memory := { files := [(⟨"a.js"⟩, "one"), (⟨"b.js"⟩, "one")] }

def steppedTwice (second : Path) : Engine Memory :=
  Engine.after {
    catalog := {}
    collaborators := Collaborators.standard {}
    settings := {}
    bench := { store := twoFiles } } [.execute ⟨0, 0⟩ (twoSteps second) fun _ _ => false]

theorem overlap_of_two_files :
    let e := steppedTwice ⟨"b.js"⟩
    (∀ r ∈ e.bench.undo.stack "m", r.content = twoFiles.get? r.path) ∧
      e.bench.undo.depth "m" = 2 ∧
      ∀ schedule, ((Overlap.begin e).turns ⟨1, 0⟩ "m" schedule).Returned →
        ∀ r ∈ e.bench.undo.stack "m",
          ((Overlap.begin e).turns ⟨1, 0⟩ "m" schedule).engine.bench.settle.store.get? r.path =
            twoFiles.get? r.path := by
  intro e
  obtain ⟨run, known, own⟩ : ∃ run, e.result? "m" = some run ∧ run.id = "m" := ⟨_, rfl, rfl⟩
  have faithful : ∀ r ∈ e.bench.undo.stack "m", r.content = twoFiles.get? r.path := by decide
  obtain ⟨-, restores⟩ := overlap_restores_iff (e := e) ⟨1, 0⟩ (by decide) known own (by decide)
    twoFiles
  exact ⟨faithful, by decide, restores.mpr faithful⟩

/-- A file that gives way to a directory of its name. -/
def movedBelow : Plan where
  id := "m"
  request := { source := "1", target := "2", move := .architectureRefactor, backup := false }
  steps := [
    { id := ⟨"1"⟩, kind := .fileOperation, path := ⟨"a"⟩ },
    { id := ⟨"2"⟩, kind := .testUpdate, path := ⟨"a/b"⟩, transformed := some "two" }]

def oneFileOnDisk : Disk :=
  { root := ⟨"/project"⟩, entries := [(["a"], .file (.text "one"))] }

def movedAndRolledBack : Engine Disk :=
  Engine.after {
    catalog := {}
    collaborators := Collaborators.standard {}
    settings := {}
    bench := { store := oneFileOnDisk } }
    [.execute ⟨0, 0⟩ movedBelow fun _ _ => false, .rollBack ⟨1, 0⟩ "m", .rollBack ⟨2, 0⟩ "m"]

/-- One call holds the newer record of a file while the other restores the older one. On disk not
even one call after the other brings back a file whose name a directory has taken. -/
theorem overlap_brings_newer_content_back :
    let e := steppedTwice ⟨"a.js"⟩
    let schedule := List.replicate 5 false ++ List.replicate 9 true ++ List.replicate 4 false
    let o := (Overlap.begin e).turns ⟨1, 0⟩ "m" schedule
    ((e.result? "m").map (·.status) = some .completed ∧ e.isActive "m" = false ∧
      e.bench.undo.hasRecords "m" = true ∧ e.bench.settle.store.readOnly = [] ∧ o.Returned ∧
      twoFiles.get? ⟨"a.js"⟩ = some "one" ∧
      o.engine.bench.settle.store.get? ⟨"a.js"⟩ = some "two") ∧
    (movedAndRolledBack.result? "m").map (·.execution.completed) = some [⟨"1"⟩, ⟨"2"⟩] ∧
      oneFileOnDisk.read ⟨"a"⟩ = .ok "one" ∧
      movedAndRolledBack.bench.settle.store.read ⟨"a"⟩ =
        .error (.unreadable ⟨"a"⟩ .isDirectory) := by
  refine ⟨⟨by decide, by decide, by decide, by decide, fun call => ?_, by decide, by decide⟩,
    by decide, by decide, by decide⟩
  cases call with
  | true => exact ⟨_, rfl⟩
  | false => exact ⟨_, rfl⟩

end Engine

end Uplift
