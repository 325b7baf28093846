import Uplift.Proofs.Undo

/-!
# Unwinding after any history

Whatever was pushed, taken, discarded and unwound before, a migration has the stack that its own
operations gave it (`stack_performAll`), and an empty stack is not kept. Unwinding pops one record
at a time (`unwind_of_pop?`) and goes on where a record cannot be restored; in the end each path
that can be written holds what its oldest record says (`unwind_restores_oldest`).
-/

namespace Uplift

namespace Keyed

variable {α : Type}

theorem erase_insert (key : String) (value : α) (m : Keyed α) :
    erase key (insert key value m) = erase key m := by
  fun_induction insert key value m with
  | case1 => simp [erase]
  | case2 old rest => simp [erase]
  | case3 k old rest other less => simp [erase]
  | case4 k old rest other behind ih =>
    unfold erase at ih ⊢
    rw [List.filter_cons, List.filter_cons, ih]

theorem erase_erase (key : String) (m : Keyed α) : erase key (erase key m) = erase key m := by
  unfold erase
  rw [List.filter_filter]
  simp

end Keyed

/-- What two unwindings report together, this one first. -/
def UndoReport.followedBy (report later : UndoReport) : UndoReport :=
  { restored := report.restored ++ later.restored, failures := report.failures ++ later.failures }

theorem UndoReport.followedBy_assoc (a b c : UndoReport) :
    (a.followedBy b).followedBy c = a.followedBy (b.followedBy c) := by
  simp [followedBy]

theorem UndoReport.followedBy_empty (report : UndoReport) : report.followedBy {} = report := by
  simp [followedBy]

namespace UndoStacks

variable {undo left : UndoStacks} {id : String}

/-! ### One record at a time -/

section
variable {σ : Type} [FileStore σ]

theorem discard_setStack (undo : UndoStacks) (id : String) (records : List UndoRecord) :
    (undo.setStack id records).discard id = undo.discard id := by
  cases records with
  | nil => exact Keyed.erase_erase id undo
  | cons r rest => exact Keyed.erase_insert id (r :: rest) undo

theorem pop?_eq_some {r : UndoRecord} (popped : undo.pop? id = some (r, left)) :
    undo.stack id = r :: left.stack id ∧ left.discard id = undo.discard id := by
  unfold pop? at popped
  cases read : undo.stack id with
  | nil =>
    rw [read] at popped
    cases popped
  | cons newest rest =>
    rw [read] at popped
    cases popped
    rw [stack_setStack]
    exact ⟨rfl, discard_setStack undo id rest⟩

def restoreFirst (r : UndoRecord) (store : σ) : UndoReport × σ :=
  match r.restore store with
  | .ok after => ({ restored := [r.step] }, after)
  | .error e => ({ failures := [⟨r.step, r.path, e⟩] }, store)

/-- An unwinding pops the newest record, restores it, and goes on with what is left. -/
theorem unwind_of_pop? {r : UndoRecord} (popped : undo.pop? id = some (r, left)) (store : σ) :
    undo.unwind id store =
      let first := restoreFirst r store
      let rest := left.unwind id first.2
      (first.1.followedBy rest.1, rest.2) := by
  obtain ⟨read, discarded⟩ := pop?_eq_some popped
  simp only [unwind, read, unwindRecords, restoreFirst, discarded]
  cases r.restore store <;> rfl

theorem unwind_of_empty (empty : undo.stack id = []) (store : σ) :
    undo.unwind id store = ({}, undo.discard id, store) := by
  rw [unwind, empty]
  rfl

end

/-! ### Histories of stacks -/

/-- The operations on the stacks; an unwinding works on a store of its own. -/
inductive Operation : Type 1 where
  | push (id : String) (r : UndoRecord)
  | popStep (id : String) (step : StepId)
  | discard (id : String)
  | unwind (id : String) {σ : Type} [FileStore σ] (store : σ)

def perform (undo : UndoStacks) : Operation → UndoStacks
  | .push id r => undo.push id r
  | .popStep id step => ((undo.popStep? id step).map (·.2)).getD undo
  | .discard id => undo.discard id
  | @Operation.unwind id _ _ store => (undo.unwind id store).2.1

def performAll (undo : UndoStacks) (operations : List Operation) : UndoStacks :=
  operations.foldl perform undo

def Operation.onStack (id : String) (records : List UndoRecord) : Operation → List UndoRecord
  | push own r => if own = id then r :: records else records
  | popStep own step =>
    if own = id ∧ records.head?.map (·.step) = some step then records.tail else records
  | discard own | unwind own _ => if own = id then [] else records

def stackAfter (id : String) (operations : List Operation) : List UndoRecord :=
  operations.foldl (Operation.onStack id) []

def kept? (records : List UndoRecord) : Option (List UndoRecord) :=
  if records = [] then none else some records

theorem getD_kept? (records : List UndoRecord) : (kept? records).getD [] = records := by
  unfold kept?
  split
  · rename_i empty
    exact empty.symm
  · rfl

theorem get?_setStack (undo : UndoStacks) (own id : String) (records : List UndoRecord) :
    (undo.setStack own records).get? id = if id = own then kept? records else undo.get? id := by
  split
  · rename_i same
    subst same
    cases records with
    | nil => exact Keyed.get?_erase_self id undo
    | cons r rest => exact Keyed.get?_insert_self id _ undo
  · rename_i different
    cases records with
    | nil => exact Keyed.get?_erase_other different undo
    | cons r rest => exact Keyed.get?_insert_other different _ undo

theorem perform_popStep (undo : UndoStacks) (id : String) (step : StepId) :
    undo.perform (.popStep id step) =
      if (undo.stack id).head?.map (·.step) = some step then undo.setStack id (undo.stack id).tail
      else undo := by
  cases read : undo.stack id with
  | nil => simp [perform, popStep?, pop?, read]
  | cons r rest =>
    by_cases own : r.step = step <;> simp [perform, popStep?, pop?, read, Option.filter, own]

theorem get?_perform {records : List UndoRecord} (held : undo.get? id = kept? records)
    (o : Operation) : (undo.perform o).get? id = kept? (o.onStack id records) := by
  have stack : undo.stack id = records := by rw [UndoStacks.stack, held, getD_kept?]
  -- each operation gives one migration a new stack, and the others keep theirs
  cases o with
  | push own r =>
    rw [perform, push, get?_setStack, held, Operation.onStack]
    by_cases same : own = id
    · rw [if_pos same.symm, if_pos same, same, stack]
    · rw [if_neg (Ne.symm same), if_neg same]
  | popStep own step =>
    rw [perform_popStep, Operation.onStack]
    by_cases same : own = id
    · subst same
      rw [stack]
      split
      · rename_i newest
        rw [get?_setStack, if_pos rfl, if_pos ⟨rfl, newest⟩]
      · rename_i newest
        rw [held, if_neg fun both : own = own ∧ _ => newest both.2]
    · rw [if_neg fun both : own = id ∧ _ => same both.1]
      split
      · rw [get?_setStack, if_neg (Ne.symm same), held]
      · exact held
  | discard own | unwind own store =>
    have emptied := get?_setStack undo own id []
    by_cases same : own = id
    · rw [if_pos same.symm] at emptied
      rw [Operation.onStack, if_pos same]
      exact emptied
    · rw [if_neg (Ne.symm same), held] at emptied
      rw [Operation.onStack, if_neg same]
      exact emptied

theorem get?_performAll (operations : List Operation) (id : String) :
    (performAll [] operations).get? id = kept? (stackAfter id operations) := by
  suffices from_any : ∀ (undo : UndoStacks) records, undo.get? id = kept? records →
      (undo.performAll operations).get? id =
        kept? (operations.foldl (Operation.onStack id) records) from from_any [] [] rfl
  induction operations with
  | nil => exact fun _ _ held => held
  | cons o rest ih => exact fun _ _ held => ih _ _ (get?_perform held o)

theorem stack_performAll (operations : List Operation) (id : String) :
    (performAll [] operations).stack id = stackAfter id operations := by
  rw [stack, get?_performAll, getD_kept?]

end UndoStacks

/-! ### What an unwinding reports -/

namespace Memory

theorem readOnly_restoreAll (m : Memory) (records : List UndoRecord) :
    (m.restoreAll records).readOnly = m.readOnly := by
  induction records generalizing m with
  | nil => rfl
  | cons r rest ih => exact (ih _).trans (readOnly_tryPut m r.path r.content)

/-- Which records fail is known before the unwinding starts. -/
theorem report_unwindRecords (m : Memory) (records : List UndoRecord) :
    (unwindRecords m records).1 =
      { restored := (records.filter fun r => !m.denies r.path).map (·.step),
        failures := (records.filter fun r => m.denies r.path).map fun r =>
          ⟨r.step, r.path, .unwritable r.path .readOnly⟩ } := by
  induction records generalizing m with
  | nil => rfl
  | cons r rest ih =>
    rw [unwindRecords, UndoRecord.restore, put_eq]
    cases denied : m.denies r.path with
    | true => simp [ih, denied]
    | false => simp [ih, denied, denies_tryPut]

end Memory

/-- After any operations on the stacks, unwinding one over a memory store gives each path of its
records that can be written what the oldest record of the path holds, and changes no other path.
The records that cannot be restored are reported as failures and the others as restored, both from
the newest to the oldest. The stack is gone afterwards, and all others are as before. -/
theorem UndoStacks.unwind_restores_oldest (operations : List UndoStacks.Operation) (id : String)
    (m : Memory) :
    let undo := performAll [] operations
    let records := stackAfter id operations
    let unwound := undo.unwind id m
    undo.stack id = records ∧
    (∀ q, unwound.2.2.get? q =
      if m.denies q then m.get? q
      else match oldestAt? q records with
        | some oldest => oldest.content
        | none => m.get? q) ∧
    unwound.2.2.readOnly = m.readOnly ∧
    unwound.1.restored = (records.filter fun r => !m.denies r.path).map (·.step) ∧
    unwound.1.failures = (records.filter fun r => m.denies r.path).map (fun r =>
      ⟨r.step, r.path, .unwritable r.path .readOnly⟩) ∧
    ∀ other, unwound.2.1.get? other = if other = id then none else undo.get? other := by
  intro undo records unwound
  have stack : undo.stack id = records := stack_performAll operations id
  have store : unwound.2.2 = m.restoreAll records := by
    rw [← stack]
    exact m.store_unwindRecords (undo.stack id)
  have report : unwound.1 = (unwindRecords m records).1 := by
    rw [← stack]
    rfl
  refine ⟨stack, fun q => ?_, ?_, ?_, ?_, fun other => get?_setStack undo id other []⟩
  · rw [store, m.get?_restoreAll]
    cases oldestAt? q records <;> rfl
  · rw [store, m.readOnly_restoreAll]
  · rw [report, m.report_unwindRecords]
  · rw [report, m.report_unwindRecords]

end Uplift
