import Uplift.Proofs.Files.Contents
import Uplift.Undo

/-!
# Stacks of records and what unwinding them does

Each operation on the stacks is given by what it does to the stack of each migration.
Unwinding a stack over a memory store is a run of attempts to put the recorded contents
back, so stores that agree still agree afterwards (`restoreAll_agrees`), and the oldest record
at a path decides what the path holds in the end (`get?_restoreAll`).
-/

namespace Uplift

namespace UndoStacks

variable {undo : UndoStacks} {id other : String}

theorem stack_setStack (undo : UndoStacks) (id : String) (records : List UndoRecord) :
    (undo.setStack id records).stack id = records := by
  cases records with
  | nil => simp [setStack, stack, Keyed.get?_erase_self]
  | cons r rest => simp [setStack, stack, Keyed.get?_insert_self]

theorem stack_setStack_other (different : other ≠ id) (undo : UndoStacks)
    (records : List UndoRecord) : (undo.setStack id records).stack other = undo.stack other := by
  cases records with
  | nil => simp [setStack, stack, Keyed.get?_erase_other different]
  | cons r rest => simp [setStack, stack, Keyed.get?_insert_other different]

theorem stack_push (undo : UndoStacks) (id : String) (r : UndoRecord) :
    (undo.push id r).stack id = r :: undo.stack id := stack_setStack undo id _

theorem stack_push_other (different : other ≠ id) (undo : UndoStacks) (r : UndoRecord) :
    (undo.push id r).stack other = undo.stack other := stack_setStack_other different undo _

theorem stack_discard (undo : UndoStacks) (id : String) : (undo.discard id).stack id = [] :=
  stack_setStack undo id []

theorem stack_discard_other (different : other ≠ id) (undo : UndoStacks) :
    (undo.discard id).stack other = undo.stack other := stack_setStack_other different undo []

theorem stack_discard_of_empty (empty : undo.stack id = []) (other : String) :
    (undo.discard other).stack id = [] := by
  by_cases same : id = other
  · rw [same]
    exact stack_discard undo other
  · rw [stack_discard_other same, empty]

theorem hasRecords_eq_false : undo.hasRecords id = false ↔ undo.stack id = [] := by
  rw [hasRecords, depth, decide_eq_false_iff_not, Nat.not_lt, Nat.le_zero,
    List.length_eq_zero_iff]

theorem popStep?_of_stack {r : UndoRecord} {rest : List UndoRecord}
    (read : undo.stack id = r :: rest) :
    undo.popStep? id r.step = some (r, undo.setStack id rest) := by
  simp [popStep?, pop?, read, Option.filter]

theorem stack_setStack_push (undo : UndoStacks) (id other : String) (r : UndoRecord) :
    ((undo.push id r).setStack id (undo.stack id)).stack other = undo.stack other := by
  by_cases same : other = id
  · subst same
    exact stack_setStack _ _ _
  · rw [stack_setStack_other same, stack_push_other same]

end UndoStacks

/-- The first of the records that were made at a path; it is the last one to be restored. -/
def oldestAt? (q : Path) (records : List UndoRecord) : Option UndoRecord :=
  (records.filter (·.path.same q)).getLast?

theorem oldestAt?_cons_same {q : Path} {r : UndoRecord} (rest : List UndoRecord)
    (same : r.path.same q = true) :
    oldestAt? q (r :: rest) = some ((oldestAt? q rest).getD r) := by
  unfold oldestAt?
  rw [List.filter_cons, if_pos same, List.getLast?_cons]

/-! ### Unwinding over a memory store -/

namespace Memory

def restoreAll (m : Memory) (records : List UndoRecord) : Memory :=
  records.foldl (fun m r => m.tryPut r.path r.content) m

theorem store_unwindRecords (m : Memory) (records : List UndoRecord) :
    (unwindRecords m records).2 = m.restoreAll records := by
  induction records generalizing m with
  | nil => rfl
  | cons r rest ih =>
    simp only [unwindRecords, UndoRecord.restore, restoreAll, List.foldl_cons]
    rw [put_eq]
    cases denied : m.denies r.path with
    | true =>
      have kept : m.tryPut r.path r.content = m := by
        have refused := put_eq m r.path r.content
        rw [denied, if_pos rfl] at refused
        simp [tryPut, refused, Except.toOption]
      rw [kept]
      exact ih m
    | false => exact ih _

theorem restoreAll_agrees {m m' : Memory} (h : Agrees m m') (records : List UndoRecord) :
    Agrees (m.restoreAll records) (m'.restoreAll records) := by
  induction records generalizing m m' with
  | nil => exact h
  | cons r rest ih => exact ih (tryPut_agrees h r.path r.content)

/-- A change at one path behind a record of what the path held is lost on unwinding. -/
theorem restoreAll_cons_agrees {p : Path} {m m' : Memory} (h : ChangesAt p m m') (step : StepId)
    (records : List UndoRecord) :
    Agrees (m.restoreAll records) (m'.restoreAll (⟨step, p, m.get? p⟩ :: records)) :=
  restoreAll_agrees (tryPut_undoes h) records

/-- Every record at a path overwrites what the newer ones have put there, so the oldest one
decides what the path holds in the end. -/
theorem get?_restoreAll (m : Memory) (records : List UndoRecord) (q : Path) :
    (m.restoreAll records).get? q =
      if m.denies q then m.get? q
      else ((oldestAt? q records).map (·.content)).getD (m.get? q) := by
  induction records generalizing m with
  | nil => exact (ite_self _).symm
  | cons r rest ih =>
    have denies : (m.tryPut r.path r.content).denies q = m.denies q := by
      rw [Memory.denies, Memory.denies, readOnly_tryPut]
    have unfolded : m.restoreAll (r :: rest) = (m.tryPut r.path r.content).restoreAll rest := rfl
    rw [unfolded, ih, denies, get?_tryPut]
    cases same : r.path.same q with
    | false =>
      have other : q.same r.path = false :=
        Bool.eq_false_iff.mpr fun back => Bool.eq_false_iff.mp same (Path.same_symm back)
      simp [oldestAt?, same, other]
    | true =>
      have back : q.same r.path = true := Path.same_symm same
      rw [oldestAt?_cons_same rest same, ← denies_congr m back]
      cases m.denies q with
      | true => simp
      | false =>
        rw [back]
        cases oldestAt? q rest <;> rfl

end Memory

end Uplift
