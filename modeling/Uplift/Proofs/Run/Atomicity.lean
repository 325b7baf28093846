import Uplift.Proofs.Run.Calls

/-!
# Steps happen as a whole or not at all

A step that fails leaves the files and the stacks as they were, wherever it failed: before
its record, in its call, in reading back or in a rule. A step that comes through changes at
most its own path, and its record is the one new entry of its migration's stack.
`attempted_step_atomic` says both for collaborators that stay on the path of their step.
-/

namespace Uplift

/-- No file and no stack differs, once late effects have come. -/
structure Bench.Undisturbed (b b' : Bench Memory) : Prop where
  files : Memory.Agrees b.settle.store b'.settle.store
  undo : ∀ id, b'.undo.stack id = b.undo.stack id

namespace Step

def recordsOn (s : Step) (m : Memory) : List UndoRecord :=
  if s.writesFile then [⟨s.id, s.path, m.get? s.path⟩] else []

structure Recorded (id : String) (s : Step) (b b' : Bench Memory) : Prop where
  change : Memory.ChangesAt s.path b.settle.store b'.settle.store
  idle : s.writesFile = false → Memory.Agrees b.settle.store b'.settle.store
  stack : b'.undo.stack id = s.recordsOn b.settle.store ++ b.undo.stack id
  others : ∀ other, other ≠ id → b'.undo.stack other = b.undo.stack other

/-- A step fails without a trace, or it comes through and leaves its record. -/
def Atomic (id : String) (s : Step) (b : Bench Memory) :
    Except StepError (List Diagnostic) × Bench Memory → Prop
  | (.error _, b') => b.Undisturbed b'
  | (.ok _, b') => Recorded id s b b'

variable {c : Collaborators Memory} {k : Conditions Memory} {id : String} {s : Step}
  {b : Bench Memory}

/-! ### Applying a step -/

theorem action_touches (stay : c.StayOnPath) {call : Call Memory Unit}
    (h : s.action c = .ok (some call)) : call.Touches s.path := by
  unfold action at h
  split at h
  · cases h
    exact stay.dependencies s
  · cases h
    exact stay.config s
  · cases h
  · cases h
  · cases h
    exact Call.touches_put s.path _

/-- A step has nothing to carry out only if it is a test update without content. -/
theorem action_of_idle (idle : s.writesFile = false) :
    s.action c = .ok none ∧ s.isReadBack = false ∧ s.transformed = none := by
  unfold writesFile at idle
  split at idle <;> simp_all [action, isReadBack]

theorem perform_changesAt {action : Option (Call Memory Unit)} {p : Path}
    (touches : ∀ call, action = some call → call.Touches p) (b : Bench Memory) :
    Memory.ChangesAt p b.settle.store (perform k action b).2.settle.store := by
  cases action with
  | none => exact (Memory.Agrees.refl _).changesAt p
  | some call =>
    simp only [perform, Bench.store_settle_call]
    exact touches call rfl b.settle.store

theorem store_outcome (s : Step) (b : Bench Memory) :
    (outcome k s b).2.settle.store = b.settle.store := by
  unfold outcome
  split
  · exact Bench.store_settle_call k _ b
  · rfl

theorem apply_changesAt (stay : c.StayOnPath) (k : Conditions Memory) (s : Step)
    (b : Bench Memory) :
    Memory.ChangesAt s.path b.settle.store (s.apply c k b).2.settle.store := by
  unfold apply
  cases chosen : s.action c with
  | error e => exact (Memory.Agrees.refl _).changesAt s.path
  | ok action =>
    have touches : ∀ call, action = some call → call.Touches s.path :=
      fun call same => action_touches stay (same ▸ chosen)
    have performed := perform_changesAt (k := k) touches b
    dsimp only
    rcases hp : perform k action b with ⟨result, b₁⟩
    rw [hp] at performed
    cases result with
    | error e => exact performed
    | ok _ =>
      have store := store_outcome (k := k) s b₁
      dsimp only
      rcases ho : outcome k s b₁ with ⟨read, b₂⟩
      rw [ho] at store
      have kept : Memory.ChangesAt s.path b.settle.store b₂.settle.store := store ▸ performed
      cases read <;> exact kept

/-! ### Taking a step back -/

theorem store_takeBack {r : UndoRecord} {rest : List UndoRecord}
    (read : b.undo.stack id = r :: rest) (own : r.step = s.id) :
    (s.takeBack k id b).settle.store = b.settle.store.tryPut r.path r.content := by
  unfold takeBack
  rw [← own, UndoStacks.popStep?_of_stack read]
  dsimp only
  rw [Bench.store_settle_call, Call.after_put]
  rfl

/-- Between the record and the end of a step only the step's path can have changed, and that
is what the record puts back. -/
theorem runRecorded_atomic (stay : c.StayOnPath) (k : Conditions Memory) (id : String)
    (writes : s.writesFile = true) (b : Bench Memory) :
    Atomic id s b (s.runRecorded c k id (b.settle.store.get? s.path) b) := by
  unfold runRecorded
  dsimp only
  generalize hr : (⟨s.id, s.path, b.settle.store.get? s.path⟩ : UndoRecord) = r
  have changes := apply_changesAt stay k s { b with undo := b.undo.push id r }
  have undo := undo_apply c k s { b with undo := b.undo.push id r }
  rcases ha : s.apply c k { b with undo := b.undo.push id r } with ⟨result, b'⟩
  rw [ha] at changes undo
  have changes : Memory.ChangesAt s.path b.settle.store b'.settle.store := changes
  have stack : b'.undo.stack id = r :: b.undo.stack id := by
    rw [undo]
    exact UndoStacks.stack_push b.undo id r
  cases result with
  | ok diagnostics =>
    refine ⟨changes, fun idle => ?_, ?_, fun other different => ?_⟩
    · rw [writes] at idle
      cases idle
    · rw [stack, recordsOn, if_pos writes, hr]
      rfl
    · rw [undo]
      exact UndoStacks.stack_push_other different b.undo r
  | error e =>
    have own : r.step = s.id := by rw [← hr]
    have store := store_takeBack (k := k) stack own
    have undo' := undo_takeBack (k := k) stack own
    refine ⟨?_, fun other => ?_⟩
    · rw [store, ← hr]
      exact Memory.tryPut_undoes changes
    · rw [undo', undo]
      exact UndoStacks.stack_setStack_push b.undo id other r

/-! ### Running a step -/

theorem run_of_idle (idle : s.writesFile = false) : s.run c k id false b = (.ok [], b) := by
  obtain ⟨nothing, noReadBack, noContent⟩ := action_of_idle (c := c) idle
  simp [run, idle, apply, nothing, perform, outcome, noReadBack, noContent, check,
    Validator.checkStep]

theorem Atomic.of_same {b₁ : Bench Memory} {ran : Except StepError (List Diagnostic) × Bench Memory}
    (store : b₁.settle.store = b.settle.store) (undo : b₁.undo = b.undo)
    (h : Atomic id s b₁ ran) : Atomic id s b ran := by
  obtain ⟨result, b'⟩ := ran
  cases result with
  | error e => exact ⟨store ▸ h.files, undo ▸ h.undo⟩
  | ok diagnostics =>
    exact ⟨store ▸ h.change, store ▸ h.idle, undo ▸ store ▸ h.stack, undo ▸ h.others⟩

theorem attempted_step_atomic (stay : c.StayOnPath) (k : Conditions Memory) (id : String)
    (s : Step) (b : Bench Memory) : Atomic id s b (s.run c k id false b) := by
  cases writes : s.writesFile with
  | false =>
    rw [run_of_idle writes]
    refine ⟨(Memory.Agrees.refl _).changesAt s.path, fun _ => Memory.Agrees.refl _, ?_,
      fun _ _ => rfl⟩
    simp [recordsOn, writes]
  | true =>
    simp only [run, Bool.false_eq_true, if_false, writes, if_true]
    have undo := Bench.undo_call k (Call.readCurrent s.path) b
    have store : (b.call k (Call.readCurrent s.path)).2.settle.store = b.settle.store :=
      Bench.store_settle_call k (Call.readCurrent s.path) b
    rcases called : b.call k (Call.readCurrent s.path) with ⟨read, b₁⟩
    rw [called] at undo store
    refine Atomic.of_same store undo ?_
    cases read with
    | error e => exact ⟨Memory.Agrees.refl _, fun _ => rfl⟩
    | ok current =>
      have read := Bench.result_of_call_ok called
      rw [Call.result_readCurrent, ← store] at read
      dsimp only at read ⊢
      obtain rfl := Except.ok.inj read
      split
      · exact ⟨Memory.Agrees.refl _, fun _ => rfl⟩
      · exact runRecorded_atomic stay k id writes b₁

/-- With the collaborators that come with the library a step fails without a trace, or it
changes at most its own path and leaves one record of what that path held. -/
theorem standard_step_atomic (policy : ExecutionPolicy) (tests : Call Memory TestReport)
    (v : Validator) (k : Conditions Memory) (id : String) (s : Step) (b : Bench Memory) :
    Atomic id s b (s.run { Collaborators.standard policy tests with validator := v } k id false b) :=
  attempted_step_atomic (Collaborators.standard_stayOnPath policy tests v) k id s b

end Step

end Uplift
