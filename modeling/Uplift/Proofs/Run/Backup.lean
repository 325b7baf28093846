import Uplift.Collaborator.Backup
import Uplift.Proofs.Files.Contents
import Uplift.Proofs.Run.Phases

/-!
# What a backup changes

A backup writes below its own place only. A path keeps its content unless the copy of
another file goes there, and that holds for a backup that breaks off as well.
-/

namespace Uplift.Backup

def IsDestination (dir : Path) (p : Plan) (q : Path) : Prop :=
  ∃ path ∈ p.risk.backups, path.same (destination dir p.id path) = false ∧
    q.same (destination dir p.id path) = true

instance (dir : Path) (p : Plan) (q : Path) : Decidable (IsDestination dir p q) :=
  inferInstanceAs (Decidable (∃ path ∈ p.risk.backups,
    path.same (destination dir p.id path) = false ∧ q.same (destination dir p.id path) = true))

theorem copyOne_ok {place path : Path} {m m' : Memory} (h : copyOne place m path = .ok m') :
    m'.readOnly = m.readOnly ∧
      ∀ q, (path.same (place.join path) = false → q.same (place.join path) = false) →
        m'.get? q = m.get? q := by
  simp only [copyOne, Memory.read?_eq, bind, Except.bind] at h
  cases held : m.get? path with
  | none =>
    obtain rfl : m = m' := by simpa [held, pure, Except.pure] using h
    exact ⟨rfl, fun _ _ => rfl⟩
  | some content =>
    rw [held] at h
    have put : FileStore.put m (place.join path) (some content) = .ok m' := h
    rw [Memory.put_eq] at put
    split at put
    · cases put
    · cases put
      refine ⟨Memory.readOnly_tryPut m _ _, fun q elsewhere => ?_⟩
      rw [Memory.get?_tryPut]
      split
      · rename_i there
        cases own : path.same (place.join path) with
        | false => simp [elsewhere own] at there
        | true =>
          -- the copy goes onto the file itself, which therefore keeps its content
          rw [Memory.get?_congr m there.2, ← Memory.get?_congr m own, held]
      · rfl

theorem copyAll_effect (place : Path) (m : Memory) (paths : List Path) :
    (copyAll place m paths).2.readOnly = m.readOnly ∧
      ∀ q, (∀ path ∈ paths, path.same (place.join path) = false →
          q.same (place.join path) = false) →
        (copyAll place m paths).2.get? q = m.get? q := by
  induction paths generalizing m with
  | nil => exact ⟨rfl, fun _ _ => rfl⟩
  | cons path rest ih =>
    unfold copyAll
    cases copied : copyOne place m path with
    | error e => exact ⟨rfl, fun _ _ => rfl⟩
    | ok m' =>
      obtain ⟨readOnly, contents⟩ := copyOne_ok copied
      obtain ⟨readOnly', contents'⟩ := ih m'
      refine ⟨readOnly'.trans readOnly, fun q elsewhere => ?_⟩
      rw [contents' q fun p member => elsewhere p (List.mem_cons_of_mem _ member)]
      exact contents q (elsewhere path List.mem_cons_self)

theorem create_effect (dir : Path) (p : Plan) (m : Memory) :
    (create dir p m).after.readOnly = m.readOnly ∧
      ∀ q, ¬IsDestination dir p q → (create dir p m).after.get? q = m.get? q := by
  obtain ⟨readOnly, contents⟩ := copyAll_effect (location dir p.id) m p.risk.backups
  refine ⟨readOnly, fun q elsewhere => contents q fun path member other => ?_⟩
  cases there : q.same (destination dir p.id path) with
  | false => exact there
  | true => exact absurd ⟨path, member, other, there⟩ elsewhere

end Uplift.Backup

namespace Uplift.Execution

theorem readOnly_prepare (policy : ExecutionPolicy) (tests : Call Memory TestReport)
    (v : Validator) (k : Conditions Memory) (plan : Plan) (b : Bench Memory) :
    (prepare { Collaborators.standard policy tests with validator := v } k plan
      b).2.bench.settle.store.readOnly = b.settle.store.readOnly := by
  obtain ⟨-, -, -, -, same | copied⟩ :=
    prepare_effect { Collaborators.standard policy tests with validator := v } k plan b
  · rw [same]
  · rw [copied]
    exact (Backup.create_effect policy.backupDir plan b.settle.store).1

theorem get?_prepare {policy : ExecutionPolicy} (tests : Call Memory TestReport) (v : Validator)
    (k : Conditions Memory) {plan : Plan} {b : Bench Memory} {q : Path}
    (spared : ¬Backup.IsDestination policy.backupDir plan q) :
    (prepare { Collaborators.standard policy tests with validator := v } k plan
      b).2.bench.settle.store.get? q = b.settle.store.get? q := by
  obtain ⟨-, -, -, -, same | copied⟩ :=
    prepare_effect { Collaborators.standard policy tests with validator := v } k plan b
  · rw [same]
  · rw [copied]
    exact (Backup.create_effect policy.backupDir plan b.settle.store).2 q spared

end Uplift.Execution
