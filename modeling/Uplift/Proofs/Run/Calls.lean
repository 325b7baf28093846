import Uplift.Collaborator.Standard
import Uplift.Proofs.Undo
import Uplift.Run.Step

/-!
# What calls do to the workbench

A call may miss its deadline, and then its effect comes late. Seen through `settle`, which
waits for late effects, every call takes effect once and at its place
(`store_settle_call`). A step that writes a file comes through only if all its calls do
(`wrote_of_passed`), and the calls that carry it out change at most its path.
-/

namespace Uplift

namespace Bench

variable {σ α : Type}

theorem undo_settle (b : Bench σ) : b.settle.undo = b.undo := rfl

/-- In time or late, the effect of a call is there once the bench has settled. -/
theorem store_settle_call (k : Conditions σ) (c : Call σ α) (b : Bench σ) :
    (b.call k c).2.settle.store = (c b.settle.store).after := by
  unfold call
  dsimp only
  split <;> rfl

theorem undo_call (k : Conditions σ) (c : Call σ α) (b : Bench σ) :
    (b.call k c).2.undo = b.undo := by
  unfold call
  dsimp only
  split <;> rfl

/-- A call that succeeds was in time and gives what the settled store gave. -/
theorem result_of_call_ok {k : Conditions σ} {c : Call σ α} {b b' : Bench σ} {value : α}
    (h : b.call k c = (.ok value, b')) : (c b.settle.store).result = .ok value := by
  unfold call at h
  dsimp only at h
  split at h
  · simp at h
  · exact congrArg Prod.fst h

end Bench

namespace Call

def Touches {α : Type} (p : Path) (c : Call Memory α) : Prop :=
  ∀ m, Memory.ChangesAt p m (c m).after

theorem touches_change {p : Path} {f : Memory → Except CollaboratorError Memory}
    (h : ∀ m m', f m = .ok m' → Memory.ChangesAt p m m') : (change f).Touches p := by
  intro m
  unfold change
  cases result : f m with
  | ok m' => exact h m m' result
  | error e => exact (Memory.Agrees.refl m).changesAt p

theorem after_put (p : Path) (content : Option String) (m : Memory) :
    (Call.put p content m).after = m.tryPut p content := by
  simp only [Call.put, change, Memory.tryPut]
  cases FileStore.put m p content <;> rfl

theorem touches_put (p : Path) (content : Option String) :
    (Call.put p content : Call Memory Unit).Touches p := by
  intro m
  rw [after_put]
  exact Memory.tryPut_changesAt m p content

theorem change_ok {σ : Type} {f : σ → Except CollaboratorError σ} {store : σ}
    (done : (change f store).result = .ok ()) : f store = .ok (change f store).after := by
  unfold change at done ⊢
  cases made : f store with
  | ok after => rfl
  | error e =>
    rw [made] at done
    cases done

theorem change_of_ok {σ : Type} {f : σ → Except CollaboratorError σ} {store after : σ}
    (made : f store = .ok after) : change f store = ⟨.ok (), after, 0⟩ := by
  rw [change, made]

theorem change_error {σ : Type} {f : σ → Except CollaboratorError σ} {store : σ}
    {e : CollaboratorError} (failed : (change f store).result = .error e) :
    (change f store).after = store := by
  unfold change at failed ⊢
  cases made : f store with
  | ok after =>
    rw [made] at failed
    cases failed
  | error => rfl

theorem ofFile_ok {α : Type} {r : Except FileError α} {a : α} (h : ofFile r = .ok a) :
    r = .ok a := by
  unfold ofFile at h
  split at h
  · exact congrArg Except.ok (Except.ok.inj h)
  · cases h

theorem readCurrent_ok {σ : Type} [FileStore σ] {k : Conditions σ} {b b' : Bench σ} {p : Path}
    {content : Option String} (h : b.call k (readCurrent p) = (.ok content, b')) :
    FileStore.read? b.settle.store p = .ok content :=
  ofFile_ok (Bench.result_of_call_ok h)

theorem put_of_call_ok {σ : Type} [FileStore σ] {k : Conditions σ} {b b' : Bench σ} {p : Path}
    {content : Option String} (h : b.call k (.put p content) = (.ok (), b')) :
    FileStore.put b.settle.store p content = .ok b'.settle.store := by
  have store := Bench.store_settle_call k (Call.put p content) b
  rw [h] at store
  rw [store]
  exact ofFile_ok (change_ok (Bench.result_of_call_ok h))

theorem result_readCurrent (p : Path) (m : Memory) :
    (Call.readCurrent p m).result = .ok (m.get? p) := by
  rw [readCurrent, query, Memory.read?_eq]
  rfl

end Call

/-! ### What a step does to the stacks -/

namespace Step

variable {σ : Type} {k : Conditions σ} {id : String} {s : Step} {b : Bench σ}

theorem undo_perform (k : Conditions σ) (action : Option (Call σ Unit)) (b : Bench σ) :
    (perform k action b).2.undo = b.undo := by
  cases action with
  | none => rfl
  | some call => exact Bench.undo_call k call b

variable [FileStore σ]

theorem undo_outcome (k : Conditions σ) (s : Step) (b : Bench σ) :
    (outcome k s b).2.undo = b.undo := by
  unfold outcome
  split
  · exact Bench.undo_call k _ b
  · rfl

theorem undo_apply (c : Collaborators σ) (k : Conditions σ) (s : Step) (b : Bench σ) :
    (s.apply c k b).2.undo = b.undo := by
  unfold apply
  cases s.action c with
  | error e => rfl
  | ok action =>
    have performed := undo_perform k action b
    dsimp only
    rcases hp : perform k action b with ⟨result, b₁⟩
    rw [hp] at performed
    cases result with
    | error e => exact performed
    | ok _ =>
      have read := (undo_outcome k s b₁).trans performed
      dsimp only
      rcases ho : outcome k s b₁ with ⟨content, b₂⟩
      rw [ho] at read
      cases content <;> exact read

theorem undo_takeBack {r : UndoRecord} {rest : List UndoRecord}
    (newest : b.undo.stack id = r :: rest) (own : r.step = s.id) :
    (s.takeBack k id b).undo = b.undo.setStack id rest := by
  unfold takeBack
  rw [← own, UndoStacks.popStep?_of_stack newest]
  exact Bench.undo_call k _ _

end Step

/-! ### Steps that come through -/

namespace Step

variable {σ : Type} [FileStore σ]

/-- The step finds its file as it was planned for, and the call that carries it out comes
through and leaves the bench `after`. -/
def Wrote (c : Collaborators σ) (k : Conditions σ) (id : String) (s : Step)
    (b after : Bench σ) : Prop :=
  s.writesFile = true ∧ ∃ current read call,
    b.call k (.readCurrent s.path) = (.ok current, read) ∧ s.isStale current = false ∧
      s.action c = .ok (some call) ∧
      { read with undo := read.undo.push id ⟨s.id, s.path, current⟩ }.call k call =
        (.ok (), after)

variable {c : Collaborators σ} {k : Conditions σ} {id : String} {s : Step} {b b' : Bench σ}

theorem apply_ok {diagnostics : List Diagnostic}
    (applied : s.apply c k b = (.ok diagnostics, b')) :
    ∃ action after content, s.action c = .ok action ∧ perform k action b = (.ok (), after) ∧
      outcome k s after = (.ok content, b') ∧ s.check c.validator content = .ok diagnostics := by
  rw [apply] at applied
  cases acts : s.action c with
  | error e =>
    rw [acts] at applied
    cases applied
  | ok action =>
    rw [acts] at applied
    dsimp only at applied
    rcases done : perform k action b with ⟨e | _, after⟩
    · rw [done] at applied
      cases applied
    · rw [done] at applied
      dsimp only at applied
      rcases read : outcome k s after with ⟨e | content, b₂⟩
      · rw [read] at applied
        cases applied
      · rw [read] at applied
        obtain ⟨checked, rfl⟩ := Prod.mk.inj applied
        exact ⟨action, after, content, rfl, done, read, checked⟩

theorem action_of_writes (writes : s.writesFile = true) : s.action c ≠ .ok none := by
  unfold writesFile at writes
  unfold action
  split at writes <;> split <;> simp_all

/-- A step that writes a file and comes through has gone through its call, and was checked on
what it wrote or read back. -/
theorem wrote_of_passed (writes : s.writesFile = true) {diagnostics : List Diagnostic}
    (ran : s.run c k id false b = (.ok diagnostics, b')) :
    ∃ after content, s.Wrote c k id b after ∧ outcome k s after = (.ok content, b') ∧
      s.check c.validator content = .ok diagnostics := by
  rw [run, if_neg Bool.false_ne_true, if_pos writes] at ran
  rcases found : b.call k (Call.readCurrent s.path) with ⟨e | current, read⟩
  · rw [found] at ran
    cases ran
  rw [found] at ran
  dsimp only at ran
  split at ran
  · cases ran
  rename_i fresh
  unfold runRecorded at ran
  dsimp only at ran
  split at ran
  case h_2 => cases ran
  rename_i applied
  cases ran
  obtain ⟨action, after, content, acts, done, outcome, checked⟩ := apply_ok applied
  cases action with
  | none => exact absurd acts (action_of_writes writes)
  | some call =>
    refine ⟨after, content, ⟨writes, current, read, call, found, ?_, acts, done⟩, outcome, checked⟩
    exact Bool.eq_false_iff.mpr fresh

end Step

/-! ### The collaborators that work on a memory store -/

namespace JsonFile

theorem write_changesAt {m m' : Memory} {p : Path} {members : Json.Members}
    (h : write m p members = .ok m') : Memory.ChangesAt p m m' := by
  have put : FileStore.put m p (some (render members)) = .ok m' := Call.ofFile_ok h
  rw [Memory.put_eq] at put
  split at put
  · cases put
  · cases put
    exact Memory.tryPut_changesAt m p _

end JsonFile

theorem Manifest.update_touches (s : Step) :
    (Manifest.update s : Call Memory Unit).Touches s.path := by
  apply Call.touches_change
  intro m m' h
  cases read : JsonFile.read m s.path with
  | error e => simp [read, bind, Except.bind] at h
  | ok manifest =>
    simp only [read, bind, Except.bind] at h
    split at h
    · exact JsonFile.write_changesAt h
    · simp at h

theorem BuildConfig.update_touches (s : Step) :
    (BuildConfig.update s : Call Memory Unit).Touches s.path := by
  apply Call.touches_change
  intro m m' h
  cases read : JsonFile.readOrEmpty m s.path with
  | error e => simp [read, bind, Except.bind] at h
  | ok root =>
    simp only [read, bind, Except.bind] at h
    split at h
    · exact JsonFile.write_changesAt h
    · simp at h

structure Collaborators.StayOnPath (c : Collaborators Memory) : Prop where
  dependencies : ∀ s, (c.dependencies s).Touches s.path
  config : ∀ s, (c.config s).Touches s.path

theorem Collaborators.standard_stayOnPath (p : ExecutionPolicy) (tests : Call Memory TestReport)
    (v : Validator) : StayOnPath { standard p tests with validator := v } :=
  ⟨Manifest.update_touches, BuildConfig.update_touches⟩

end Uplift
