import Uplift.Proofs.Files.Placement
import Uplift.Proofs.Plan.Backups
import Uplift.Proofs.Run.Atomicity
import Uplift.Proofs.Run.Backup
import Uplift.Proofs.Run.Bookkeeping
import Uplift.Proofs.Run.Planned

/-!
# Backups are complete before the first write

The copies of different files go to different paths, and none of them is a file that is still
to be copied, so a backup that comes through holds every file (`get?_copyAll`). The steps stay
on their own paths, which are not below the place of the backup, and so does undoing them.
Hence every store that the run passes through afterwards still holds the copies
(`backup_holds_at_every_moment`).
-/

namespace Uplift

namespace Backup

variable {place : Path} {m : Memory}

theorem same_eq_false_of_holds {p q : Path} (outside : ¬place.Holds p) (holds : place.Holds q) :
    p.same q = false := by
  rw [Bool.eq_false_iff]
  exact fun same => outside (holds.congr (Path.same_symm same))

theorem get?_copyOne {path : Path} {m' : Memory} (copied : copyOne place m path = .ok m')
    {content : String} (held : m.get? path = some content) :
    m'.get? (place.join path) = some content := by
  simp only [copyOne, Memory.read?_eq, held, bind, Except.bind] at copied
  have put : FileStore.put m (place.join path) (some content) = .ok m' := copied
  exact Memory.get?_of_put put

theorem get?_copyAll {paths : List Path} (copied : (copyAll place m paths).1 = .ok ())
    (plain : ∀ path ∈ paths, path.Plain ∧ ¬place.Holds path)
    (once : paths.Pairwise fun p q => p.same q = false) :
    ∀ path ∈ paths, ∀ content, m.get? path = some content →
      (copyAll place m paths).2.get? (place.join path) = some content := by
  induction paths generalizing m with
  | nil => simp
  | cons first rest ih =>
    obtain ⟨⟨own, outside⟩, others⟩ := List.forall_mem_cons.mp plain
    obtain ⟨new, once⟩ := List.pairwise_cons.mp once
    unfold copyAll at copied ⊢
    cases one : copyOne place m first with
    | error e =>
      rw [one] at copied
      cases copied
    | ok m' =>
      rw [one] at copied
      dsimp only at copied ⊢
      intro path member content held
      rcases List.mem_cons.mp member with rfl | later
      · -- the copies that come later go elsewhere
        rw [(copyAll_effect place m' rest).2 (place.join path) fun path' member' _ => by
          rw [Path.same_join_iff place own (others path' member').1, new path' member']]
        exact get?_copyOne one held
      · have kept := (copyOne_ok one).2 path fun _ =>
          same_eq_false_of_holds (others path later).2 (place.holds_join own)
        exact ih copied others once path later content (kept.trans held)

/-- The copies that come through are complete, and nothing else changes in any case. -/
theorem create_complete (dir : Path) {plan : Plan}
    (once : plan.risk.backups.Pairwise fun p q => p.same q = false)
    (plain : ∀ path ∈ plan.risk.backups, path.Plain ∧ ¬(location dir plan.id).Holds path)
    (m : Memory) :
    (∀ q, ¬(location dir plan.id).Holds q → (create dir plan m).after.get? q = m.get? q) ∧
      ∀ made, (create dir plan m).result = .ok made → ∀ path ∈ plan.risk.backups, ∀ content,
        m.get? path = some content →
          (create dir plan m).after.get? (destination dir plan.id path) = some content := by
  refine ⟨fun q outside => ?_, fun made done path member content held => ?_⟩
  · refine (copyAll_effect (location dir plan.id) m plan.risk.backups).2 q fun path member _ => ?_
    exact same_eq_false_of_holds outside (Path.holds_join _ (plain path member).1)
  · refine get?_copyAll ?_ plain once path member content held
    unfold create at done
    dsimp only at done
    cases copied : (copyAll (location dir plan.id) m plan.risk.backups).1 with
    | ok _ => rfl
    | error e =>
      rw [copied] at done
      cases done

/-- The backup of a built plan holds the file of every step, however the step spells its path. -/
theorem create_of_built {τ : Type} [FileStore τ] {id : String} {now : Timestamp}
    {settings : Settings} {store : τ} {patterns : List Pattern} {r : Request} {plan : Plan}
    (built : Plan.build id now settings store patterns r = .ok plan) (dir : Path)
    (plain : ∀ s ∈ plan.steps, s.path.Plain)
    (outside : ∀ s ∈ plan.steps, ¬(location dir plan.id).Holds s.path) (m : Memory) :
    (∀ q, ¬(location dir plan.id).Holds q → (create dir plan m).after.get? q = m.get? q) ∧
      ∀ made, (create dir plan m).result = .ok made → ∀ s ∈ plan.steps, ∀ content,
        m.get? s.path = some content →
          (create dir plan m).after.get? (destination dir plan.id s.path) = some content := by
  have listed := Plan.backups_of_built built
  obtain ⟨taken, found, once⟩ := distinctPaths_spec plan.steps
  rw [← listed] at taken found once
  have clear (path : Path) (member : path ∈ plan.risk.backups) :
      path.Plain ∧ ¬(location dir plan.id).Holds path := by
    obtain ⟨s, among, rfl⟩ := taken path member
    exact ⟨plain s among, outside s among⟩
  obtain ⟨elsewhere, complete⟩ := create_complete dir once clear m
  refine ⟨elsewhere, fun made done s member content held => ?_⟩
  obtain ⟨path, kept, same⟩ := found s member
  have spelled : (destination dir plan.id s.path).same (destination dir plan.id path) = true := by
    unfold destination
    rw [Path.same_join_iff _ (plain s member) (clear path kept).1, same]
  rw [Memory.get?_congr _ spelled]
  exact complete made done path kept content (by rw [← Memory.get?_congr m same, held])

end Backup

namespace Memory

theorem get?_restoreAll_other {m : Memory} {records : List UndoRecord} {q : Path}
    (elsewhere : ∀ r ∈ records, r.path.same q = false) :
    (m.restoreAll records).get? q = m.get? q := by
  have none : oldestAt? q records = none := by
    unfold oldestAt?
    rw [List.getLast?_eq_none_iff, List.filter_eq_nil_iff]
    exact fun r member same => Bool.eq_false_iff.mp (elsewhere r member) same
  rw [get?_restoreAll, none]
  exact ite_self _

end Memory

namespace Execution

variable {c : Collaborators Memory} {k : Conditions Memory} {plan : Plan} {b : Bench Memory}

/-- Nothing at a place has been touched, and undoing the migration would not do so either. -/
structure Spares (id : String) (place : Path) (origin : Memory) (b : Bench Memory) : Prop where
  contents : ∀ q, place.Holds q → b.settle.store.get? q = origin.get? q
  records : ∀ r ∈ b.undo.stack id, ¬place.Holds r.path

variable {place : Path} {origin : Memory} {p : Progress Memory} {s : Step}

theorem Spares.step {id : String} (spares : Spares id place origin b)
    (outside : ¬place.Holds s.path) {ran : Except StepError (List Diagnostic) × Bench Memory}
    (atomic : Step.Atomic id s b ran) : Spares id place origin ran.2 := by
  obtain ⟨e | diagnostics, after⟩ := ran
  · refine ⟨fun q held => (atomic.files.contents q).trans (spares.contents q held), ?_⟩
    rw [atomic.undo]
    exact spares.records
  · refine ⟨fun q held => ?_, ?_⟩
    · have other : q.same s.path = false :=
        Bool.eq_false_iff.mpr fun same => outside (held.congr same)
      exact (atomic.change.elsewhere q other).trans (spares.contents q held)
    · rw [atomic.stack, Step.recordsOn]
      intro r member
      rcases List.mem_append.mp member with own | earlier
      · split at own
        · obtain rfl := List.mem_singleton.mp own
          exact outside
        · cases own
      · exact spares.records r earlier

theorem attempt_spares (stay : c.StayOnPath) (real : plan.request.dryRun = false)
    (outside : ¬place.Holds s.path) (runs : p.Runs plan)
    (spares : Spares plan.id place origin p.bench) :
    Spares plan.id place origin (attempt c k p s).bench := by
  obtain ⟨-, same⟩ | ⟨-, ran⟩ := attempt_bench (c := c) (k := k) runs s
  · rw [same]
    exact spares
  · rw [ran, real]
    exact spares.step outside (Step.attempted_step_atomic stay k plan.id s p.bench)

theorem between_spares (stay : c.StayOnPath) (real : plan.request.dryRun = false)
    (outside : ∀ s ∈ plan.steps, ¬place.Holds s.path)
    (records : ∀ r ∈ b.undo.stack plan.id, ¬place.Holds r.path) (n : Nat) :
    Spares plan.id place (prepare c k plan b).2.bench.settle.store
      (between c k plan b n).bench := by
  obtain ⟨-, -, -, undo, -⟩ := prepare_effect c k plan b
  refine (attemptAll_invariant
    (fun _ p => p.Runs plan ∧
      Spares plan.id place (prepare c k plan b).2.bench.settle.store p.bench)
    (fun _ p s member ⟨runs, spares⟩ =>
      ⟨attempt_runs runs s, attempt_spares stay real (outside s ?_) runs spares⟩)
    ⟨prepare_runs c k plan b, fun _ _ => rfl, undo ▸ records⟩).2
  have begun := List.mem_of_mem_take member
  unfold stepsBegun at begun
  split at begun
  · exact begun
  · cases begun

/-! ### Moments of a run -/

/-- The stores that a run passes through once its backup is made: between two steps, behind the
call of a step even if the step is then taken back, while it is undone, and in the end. -/
inductive Moment (c : Collaborators Memory) (k : Conditions Memory) (plan : Plan)
    (b : Bench Memory) : Memory → Prop
  | between (n : Nat) : Moment c k plan b (between c k plan b n).bench.settle.store
  | within {n : Nat} {s : Step} {call : Call Memory Unit} (next : plan.steps[n]? = some s)
      (acts : s.action c = .ok (some call)) :
      Moment c k plan b (call (between c k plan b n).bench.settle.store).after
  | undoing {p : Progress Memory} (behind : p = between c k plan b plan.steps.length) (j : Nat) :
      Moment c k plan b
        (unwindRecords p.bench.settle.store ((p.bench.undo.stack plan.id).take j)).2
  | ended : Moment c k plan b (run c k plan b).2.settle.store

/-- If the steps and the tests spare a place, then it is at every moment as the backup left it. -/
theorem get?_of_moment (stay : c.StayOnPath)
    (calm : ∀ m q, place.Holds q → (c.tests m).after.get? q = m.get? q)
    (real : plan.request.dryRun = false) (outside : ∀ s ∈ plan.steps, ¬place.Holds s.path)
    (records : ∀ r ∈ b.undo.stack plan.id, ¬place.Holds r.path) {m : Memory}
    (moment : Moment c k plan b m) {q : Path} (held : place.Holds q) :
    m.get? q = (prepare c k plan b).2.bench.settle.store.get? q := by
  have spares := between_spares (k := k) stay real outside records
  have elsewhere {records : List UndoRecord} (others : ∀ r ∈ records, ¬place.Holds r.path) :
      ∀ r ∈ records, r.path.same q = false := fun r member =>
    Backup.same_eq_false_of_holds (others r member) held
  cases moment with
  | between n => exact (spares n).contents q held
  | @within n s call next acts =>
    have other : q.same s.path = false := Bool.eq_false_iff.mpr fun same =>
      outside s (List.mem_of_getElem? next) (held.congr same)
    exact ((Step.action_touches stay acts _).elsewhere q other).trans ((spares n).contents q held)
  | undoing behind j =>
    subst behind
    rw [Memory.store_unwindRecords, Memory.get?_restoreAll_other (elsewhere fun r member =>
      (spares _).records r (List.mem_of_mem_take member))]
    exact (spares _).contents q held
  | ended =>
    obtain ⟨-, -, undo, ending, -⟩ := run_ending c k plan b
    have steps := (spares plan.steps.length).contents q held
    cases ending with
    | undone _ _ unwound =>
      rw [unwound, Memory.store_unwindRecords,
        Memory.get?_restoreAll_other (elsewhere (spares plan.steps.length).records)]
      exact steps
    | failed _ left => rw [left, steps]
    | completed _ _ _ left =>
      rcases left with same | tested
      · rw [same, steps]
      · rw [tested, calm _ q held, steps]

/-! ### Runs with a backup -/

section Prepared

variable {σ : Type} [FileStore σ] {c : Collaborators σ} {k : Conditions σ} {plan : Plan}
  {b : Bench σ}

theorem prepare_backup (enabled : plan.request.backup = true)
    (real : plan.request.dryRun = false) :
    (prepare c k plan b).2.bench.settle.store = (c.backup plan b.settle.store).after ∧
      (backupError? c k plan b = none →
        ∃ made, (c.backup plan b.settle.store).result = .ok made) := by
  have started : (start k plan b).bench.settle.store = b.settle.store :=
    (measure_effect k plan.risk.backups b).1
  have store := Bench.store_settle_call k (c.backup plan) (start k plan b).bench
  unfold prepare backupError?
  simp only [enabled, real, Bool.not_false, Bool.and_self, if_true]
  unfold makeBackup
  rw [show (start k plan b).run.plan = plan from rfl]
  rw [started] at store
  rcases called : (start k plan b).bench.call k (c.backup plan) with ⟨e | made, after⟩
  · rw [called] at store
    exact ⟨store, fun ready => by cases ready⟩
  · rw [called] at store
    exact ⟨store, fun _ => ⟨made, started ▸ Bench.result_of_call_ok called⟩⟩

theorem run_of_lost {e : CollaboratorError} (lost : backupError? c k plan b = some e) :
    (run c k plan b).1.status = .failed ∧
      (run c k plan b).2.settle.store = (prepare c k plan b).2.bench.settle.store := by
  obtain ⟨completes, rollsBack, fails, -⟩ := run_status c k plan b
  obtain ⟨nothing, uncancelled⟩ := tried_of_lost lost
  have failed : (run c k plan b).1.status = .failed := by
    rw [fails, Ne, completes, Ne, rollsBack]
    simp [lost, isStopped, nothing, uncancelled]
  refine ⟨failed, ?_⟩
  have unbegun : stepsBegun c k plan b = [] := by
    unfold stepsBegun
    rw [(prepare_books c k plan b).1, lost]
    rfl
  have behind : between c k plan b plan.steps.length = (prepare c k plan b).2 := by
    rw [between_all, unbegun]
    rfl
  obtain ⟨-, -, undo, ending, -⟩ := run_ending c k plan b
  rw [behind, failed] at ending
  cases ending with
  | undone _ ends => cases ends
  | failed _ left => exact left
  | completed _ _ ends => cases ends

end Prepared

/-- A real run of a plan that was built, with its backup on, either loses the backup, and then
it tries no step, fails, and has changed nothing but below the place of the backup. Or at every
moment from then on the copy of each file that a step has and that was there before the run
holds what the file held before the run. The steps' paths are to be relative, not to start
with the component `.` and not to lie at that place; no earlier record and no test is to touch
the place. -/
theorem backup_holds_at_every_moment {τ : Type} [FileStore τ] {id : String} {now : Timestamp}
    {settings : Settings} {store : τ} {patterns : List Pattern} {r : Request} {plan : Plan}
    (built : Plan.build id now settings store patterns r = .ok plan) (policy : ExecutionPolicy)
    (tests : Call Memory TestReport) (v : Validator) (k : Conditions Memory) (b : Bench Memory)
    (enabled : plan.request.backup = true) (real : plan.request.dryRun = false)
    (plain : ∀ s ∈ plan.steps, s.path.Plain)
    (outside : ∀ s ∈ plan.steps, ¬(Backup.location policy.backupDir plan.id).Holds s.path)
    (records : ∀ r ∈ b.undo.stack plan.id,
      ¬(Backup.location policy.backupDir plan.id).Holds r.path)
    (calm : ∀ m q, (Backup.location policy.backupDir plan.id).Holds q →
      (tests m).after.get? q = m.get? q) :
    let c := { Collaborators.standard policy tests with validator := v }
    (∃ e, backupError? c k plan b = some e ∧ tried c k plan b = [] ∧
        (run c k plan b).1.status = .failed ∧
        ∀ q, ¬(Backup.location policy.backupDir plan.id).Holds q →
          (run c k plan b).2.settle.store.get? q = b.settle.store.get? q) ∨
      backupError? c k plan b = none ∧ ∀ m, Moment c k plan b m → ∀ s ∈ plan.steps,
        ∀ content, b.settle.store.get? s.path = some content →
          m.get? (Backup.destination policy.backupDir plan.id s.path) = some content := by
  intro c
  obtain ⟨prepared, made⟩ := prepare_backup (c := c) (k := k) (b := b) enabled real
  obtain ⟨elsewhere, complete⟩ :=
    Backup.create_of_built built policy.backupDir plain outside b.settle.store
  cases lost : backupError? c k plan b with
  | some e =>
    obtain ⟨failed, left⟩ := run_of_lost lost
    refine .inl ⟨e, rfl, (tried_of_lost lost).1, failed, fun q free => ?_⟩
    rw [left, prepared]
    exact elsewhere q free
  | none =>
    obtain ⟨place, done⟩ := made lost
    refine .inr ⟨rfl, fun m moment s member content held => ?_⟩
    have stay := Collaborators.standard_stayOnPath policy tests v
    have below : (Backup.location policy.backupDir plan.id).Holds
        (Backup.destination policy.backupDir plan.id s.path) := Path.holds_join _ (plain s member)
    rw [get?_of_moment stay calm real outside records moment below, prepared]
    exact complete place done s member content held

/-- The file is rewritten three times, and its copy still holds what it held at first. -/
theorem declarations_backed_up :
    ∃ plan, declarationPlan = .ok plan ∧
      let p := between (Collaborators.standard {}) { deadline := 10 } plan declarationFiles 3
      let ended := run (Collaborators.standard {}) { deadline := 10 } plan declarationFiles
      p.bench.settle.store.get? ⟨"a.js"⟩ = some "const a; const b;" ∧
        p.bench.settle.store.get? ⟨".codemig/backups/m/a.js"⟩ = some "var a; let b;" ∧
        ended.2.settle.store.get? ⟨".codemig/backups/m/a.js"⟩ = some "var a; let b;" := by
  obtain ⟨plan, built⟩ : ∃ plan, declarationPlan = .ok plan := ⟨_, rfl⟩
  have facts : ∀ plan ∈ declarationPlan.toOption,
      let p := between (Collaborators.standard {}) { deadline := 10 } plan declarationFiles 3
      (backupError? (Collaborators.standard {}) { deadline := 10 } plan declarationFiles).isNone ∧
        (plan.request.backup = true ∧ plan.request.dryRun = false) ∧
        (∀ s ∈ plan.steps, (s.path.isAbsolute = false ∧ s.path.components.head? ≠ some .here) ∧
          ¬(Backup.location ⟨".codemig/backups"⟩ plan.id).Holds s.path) ∧
        (∃ s ∈ plan.steps, s.path = ⟨"a.js"⟩) ∧ plan.id = "m" ∧
        p.bench.settle.store.get? ⟨"a.js"⟩ = some "const a; const b;" := by
    decide +kernel
  obtain ⟨kept, ⟨enabled, real⟩, paths, ⟨s, member, own⟩, named, left⟩ :=
    facts plan (by rw [built]; rfl)
  obtain ⟨e, lost, -⟩ | ⟨-, holds⟩ := backup_holds_at_every_moment built {}
    (Collaborators.fixedTests {}) Validator.builtin { deadline := 10 } declarationFiles enabled real
    (fun s member => ⟨(paths s member).1.1, (paths s member).1.2⟩)
    (fun s member => (paths s member).2)
    (fun r recorded => by cases recorded) (fun _ _ _ => rfl)
  · rw [show backupError? (Collaborators.standard {}) { deadline := 10 } plan declarationFiles = _
      from lost] at kept
    cases kept
  · have held : declarationFiles.settle.store.get? s.path = some "var a; let b;" := by
      rw [own]
      decide
    have place : Backup.destination ⟨".codemig/backups"⟩ plan.id s.path =
        ⟨".codemig/backups/m/a.js"⟩ := by
      rw [own, named]
      decide
    refine ⟨plan, built, left, ?_, ?_⟩
    · exact place ▸ holds _ (.between 3) s member _ held
    · exact place ▸ holds _ .ended s member _ held

end Execution

end Uplift
