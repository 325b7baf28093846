import Mathlib.Logic.Function.Basic
import Uplift.Proofs.Run.Calls

/-!
# Runs that share the overdue calls

Several runs may work at once. A call that misses its deadline goes on beside its run, and the run
puts it on a list that all runs share; before its next call a run takes the whole list and waits
for the calls on it, until it finds the list empty (`Runs.turn?`). So a run may take the late call
of another one, and that run then finds an empty list and goes on too early: when a run issues a
call, an earlier one of its own is unfinished exactly if another run has taken it and still waits
for it (`overtaken_iff_taken`). Where no other run does that, the effects of a run come in the
order of its calls (`effects_in_order`), as they do on the bench of a run that is alone
(`lone_run_agrees`).
-/

namespace Uplift

/-- A call of a run, by the number of calls that the run had issued before it. -/
structure Ticket (ι : Type) where
  run : ι
  number : Nat
  deriving DecidableEq

inductive Phase (ι : Type) where
  /-- It is about to take the overdue calls. -/
  | looking
  | waiting (pending : List (Ticket ι))
  /-- It took an empty list, and may issue a call or undo its steps. -/
  | free
  | calling (t : Ticket ι)
  /-- The call has missed its deadline, and is not on the list yet. -/
  | late (t : Ticket ι)
  deriving DecidableEq

def Phase.pending {ι : Type} : Phase ι → List (Ticket ι)
  | waiting pending => pending
  | looking | free | calling _ | late _ => []

/-- A phase that keeps a call in view until it has finished. -/
def Phase.Knows {ι : Type} (phase : Phase ι) (t : Ticket ι) : Prop :=
  phase = .calling t ∨ phase = .late t ∨ t ∈ phase.pending

structure Runs (ι σ : Type) where
  store : σ
  overdue : List (Ticket ι) := []
  running : List (Ticket ι × (σ → σ)) := []
  /-- The calls that have finished, in the order of their effects. -/
  landed : List (Ticket ι × (σ → σ)) := []
  issued : ι → Nat := fun _ => 0
  phase : ι → Phase ι := fun _ => .looking

namespace Runs

inductive Turn (ι σ : Type) where
  | take (i : ι)
  | await (i : ι)
  | issue (i : ι) (effect : σ → σ)
  | answer (i : ι)
  | expire (i : ι)
  | push (i : ι)
  | finish (t : Ticket ι)

variable {ι σ : Type} [DecidableEq ι]

def isRunning (s : Runs ι σ) (t : Ticket ι) : Bool := s.running.any (·.1 = t)

def enter (s : Runs ι σ) (i : ι) (phase : Phase ι) : Runs ι σ :=
  { s with phase := Function.update s.phase i phase }

def next (s : Runs ι σ) (i : ι) : Ticket ι := ⟨i, s.issued i⟩

def issue (s : Runs ι σ) (i : ι) (effect : σ → σ) : Runs ι σ :=
  { s with
    running := s.running ++ [(s.next i, effect)]
    issued := Function.update s.issued i (s.issued i + 1) }

def land (s : Runs ι σ) (t : Ticket ι) (effect : σ → σ) : Runs ι σ :=
  { s with
    store := effect s.store
    running := s.running.filter (·.1 ≠ t)
    landed := s.landed ++ [(t, effect)] }

def turn? (s : Runs ι σ) : Turn ι σ → Option (Runs ι σ)
  | .take i =>
    match s.phase i with
    | .looking =>
      if s.overdue = [] then some (s.enter i .free)
      else some ({ s with overdue := [] }.enter i (.waiting s.overdue))
    | _ => none
  | .await i =>
    match s.phase i with
    | .waiting [] => some (s.enter i .looking)
    | .waiting (t :: rest) => if s.isRunning t then none else some (s.enter i (.waiting rest))
    | _ => none
  | .issue i effect =>
    match s.phase i with
    | .free => some ((s.issue i effect).enter i (.calling (s.next i)))
    | _ => none
  | .answer i =>
    match s.phase i with
    | .calling t => if s.isRunning t then none else some (s.enter i .looking)
    | _ => none
  | .expire i =>
    match s.phase i with
    | .calling t => if s.isRunning t then some (s.enter i (.late t)) else none
    | _ => none
  | .push i =>
    match s.phase i with
    | .late t => some ({ s with overdue := s.overdue ++ [t] }.enter i .looking)
    | _ => none
  | .finish t =>
    match s.running.find? (·.1 = t) with
    | some (_, effect) => some (s.land t effect)
    | none => none

def start (store : σ) : Runs ι σ := { store := store }

/-- The states that turns lead to from a store, all of them of one kind. -/
inductive Reached (kind : Runs ι σ → Prop) (store : σ) : Runs ι σ → Prop where
  | start : Reached kind store (start store)
  | turn {s s' : Runs ι σ} (t : Turn ι σ) (before : Reached kind store s)
      (took : s.turn? t = some s') (allowed : kind s') : Reached kind store s'

variable {s s' : Runs ι σ} {i : ι} {phase : Phase ι} {t : Ticket ι}

inductive Step (s : Runs ι σ) : Runs ι σ → Prop where
  | freed {i : ι} (looking : s.phase i = .looking) (empty : s.overdue = []) :
      Step s (s.enter i .free)
  | took {i : ι} (looking : s.phase i = .looking) :
      Step s ({ s with overdue := [] }.enter i (.waiting s.overdue))
  | waited {i : ι} (waits : s.phase i = .waiting []) : Step s (s.enter i .looking)
  | met {i : ι} {t : Ticket ι} {rest : List (Ticket ι)} (waits : s.phase i = .waiting (t :: rest))
      (finished : ¬s.isRunning t = true) : Step s (s.enter i (.waiting rest))
  | issued {i : ι} (free : s.phase i = .free) (effect : σ → σ) :
      Step s ((s.issue i effect).enter i (.calling (s.next i)))
  | answered {i : ι} {t : Ticket ι} (calls : s.phase i = .calling t)
      (finished : ¬s.isRunning t = true) : Step s (s.enter i .looking)
  | expired {i : ι} {t : Ticket ι} (calls : s.phase i = .calling t) : Step s (s.enter i (.late t))
  | pushed {i : ι} {t : Ticket ι} (late : s.phase i = .late t) :
      Step s ({ s with overdue := s.overdue ++ [t] }.enter i .looking)
  | landed {t : Ticket ι} {effect : σ → σ} (member : (t, effect) ∈ s.running) :
      Step s (s.land t effect)

theorem turn?_step {turn : Turn ι σ} (took : s.turn? turn = some s') : Step s s' := by
  cases turn with
  | take i =>
    rw [turn?] at took
    split at took
    · rename_i looking
      split at took
      · rename_i empty
        cases took
        exact .freed looking empty
      · cases took
        exact .took looking
    · cases took
  | await i =>
    rw [turn?] at took
    split at took
    · rename_i waits
      cases took
      exact .waited waits
    · rename_i waits
      split at took
      · cases took
      · rename_i finished
        cases took
        exact .met waits finished
    · cases took
  | issue i effect =>
    rw [turn?] at took
    split at took
    · rename_i free
      cases took
      exact .issued free effect
    · cases took
  | answer i =>
    rw [turn?] at took
    split at took
    · rename_i calls
      split at took
      · cases took
      · rename_i finished
        cases took
        exact .answered calls finished
    · cases took
  | expire i =>
    rw [turn?] at took
    split at took
    · rename_i calls
      split at took
      · cases took
        exact .expired calls
      · cases took
    · cases took
  | push i =>
    rw [turn?] at took
    split at took
    · rename_i late
      cases took
      exact .pushed late
    · cases took
  | finish t =>
    rw [turn?] at took
    split at took
    · rename_i own effect found
      cases took
      have same : own = t := by simpa using List.find?_some found
      exact .landed (same ▸ List.mem_of_find?_eq_some found)
    · cases took

def turns? (kind : Runs ι σ → Bool) (s : Runs ι σ) (schedule : List (Turn ι σ)) :
    Option (Runs ι σ) :=
  schedule.foldlM (fun s t => (s.turn? t).filter kind) s

theorem Reached.turns {kind : Runs ι σ → Bool} {store : σ} {schedule : List (Turn ι σ)}
    (reached : Reached (kind · = true) store s) (took : s.turns? kind schedule = some s') :
    Reached (kind · = true) store s' := by
  induction schedule generalizing s with
  | nil =>
    cases took
    exact reached
  | cons t rest ih =>
    obtain ⟨next, first, later⟩ := Option.bind_eq_some_iff.mp took
    obtain ⟨first, allowed⟩ := Option.filter_eq_some_iff.mp first
    exact ih (reached.turn t first allowed) later

/-! ### Where an unfinished call is known -/

def Known (s : Runs ι σ) (t : Ticket ι) : Prop := t ∈ s.overdue ∨ ∃ i, (s.phase i).Knows t

structure Tracked (s : Runs ι σ) : Prop where
  known : ∀ t, s.isRunning t = true → s.Known t
  own : ∀ i t, s.phase i = .calling t ∨ s.phase i = .late t → t.run = i
  /-- A run that may issue a call has none on the list. -/
  clear : ∀ i, s.phase i = .free → ∀ t ∈ s.overdue, t.run ≠ i

theorem phase_enter (s : Runs ι σ) (i : ι) (phase : Phase ι) (j : ι) :
    (s.enter i phase).phase j = if j = i then phase else s.phase j := Function.update_apply ..

theorem Known.enter (known : s.Known t) (kept : (s.phase i).Knows t → phase.Knows t) :
    (s.enter i phase).Known t := by
  rcases known with listed | ⟨j, knows⟩
  · exact .inl listed
  · refine .inr ⟨j, ?_⟩
    rw [phase_enter]
    split
    · rename_i same
      subst same
      exact kept knows
    · exact knows

/-- A run goes over to a phase, and at most its own calls come on the list with that. -/
theorem Tracked.enter {s₁ : Runs ι σ} (tracked : s.Tracked) (same : s₁.phase = s.phase)
    (known : ∀ t, s₁.isRunning t = true → (s₁.enter i phase).Known t)
    (own : ∀ t, phase = .calling t ∨ phase = .late t → t.run = i)
    (clear : phase = .free → s₁.overdue = [])
    (listed : ∀ t ∈ s₁.overdue, t ∈ s.overdue ∨ t.run = i) : (s₁.enter i phase).Tracked := by
  refine ⟨known, fun j t view => ?_, fun j free t member => ?_⟩
  · rw [phase_enter, same] at view
    split at view
    · rename_i same
      exact (own t view).trans same.symm
    · exact tracked.own j t view
  · rw [phase_enter, same] at free
    change t ∈ s₁.overdue at member
    split at free
    · rw [clear free] at member
      cases member
    · rename_i different
      rcases listed t member with before | mine
      · exact tracked.clear j free t before
      · rw [mine]
        exact Ne.symm different

theorem Tracked.go (tracked : s.Tracked)
    (kept : ∀ t, s.isRunning t = true → (s.phase i).Knows t → phase.Knows t)
    (own : ∀ t, phase = .calling t ∨ phase = .late t → t.run = i)
    (clear : phase = .free → s.overdue = []) : (s.enter i phase).Tracked :=
  tracked.enter rfl (fun t running => (tracked.known t running).enter (kept t running)) own clear
    fun _ member => .inl member

theorem Tracked.take (tracked : s.Tracked) (looking : s.phase i = .looking) :
    ({ s with overdue := [] }.enter i (.waiting s.overdue)).Tracked := by
  refine tracked.enter rfl (fun t running => ?_) (by simp) (by simp) (by simp)
  have known : s.Known t := tracked.known t running
  rcases known with listed | ⟨j, knows⟩
  · refine .inr ⟨i, ?_⟩
    rw [phase_enter, if_pos rfl]
    exact .inr (.inr listed)
  · have moved : ({ s with overdue := [] } : Runs ι σ).Known t := .inr ⟨j, knows⟩
    refine moved.enter fun knows => ?_
    change (s.phase i).Knows t at knows
    rw [looking] at knows
    simp [Phase.Knows, Phase.pending] at knows

theorem Tracked.push (tracked : s.Tracked) (late : s.phase i = .late t) :
    ({ s with overdue := s.overdue ++ [t] }.enter i .looking).Tracked := by
  refine tracked.enter rfl (fun other running => ?_) (by simp) (by simp) fun other listed => ?_
  · have known : s.Known other := tracked.known other running
    rcases known with listed | ⟨j, knows⟩
    · exact .inl (List.mem_append_left _ listed)
    · by_cases same : other = t
      · exact .inl (List.mem_append_right _ (same ▸ List.mem_singleton_self t))
      · have moved : ({ s with overdue := s.overdue ++ [t] } : Runs ι σ).Known other :=
          .inr ⟨j, knows⟩
        refine moved.enter fun knows => ?_
        change (s.phase i).Knows other at knows
        rw [late] at knows
        simp [Phase.Knows, Phase.pending, Ne.symm same] at knows
  · rcases List.mem_append.mp listed with before | last
    · exact .inl before
    · rw [List.mem_singleton.mp last]
      exact .inr (tracked.own i t (.inr late))

theorem isRunning_iff : s.isRunning t = true ↔ ∃ effect, (t, effect) ∈ s.running := by
  rw [isRunning, List.any_eq_true]
  constructor
  · rintro ⟨⟨own, effect⟩, member, same⟩
    exact ⟨effect, of_decide_eq_true same ▸ member⟩
  · rintro ⟨effect, member⟩
    exact ⟨(t, effect), member, decide_eq_true rfl⟩

theorem Tracked.issue (tracked : s.Tracked) (free : s.phase i = .free) (effect : σ → σ) :
    ((s.issue i effect).enter i (.calling (s.next i))).Tracked := by
  refine tracked.enter rfl (fun other running => ?_) (fun other same => ?_) (by simp)
    fun _ member => .inl member
  · obtain ⟨own, member⟩ := isRunning_iff.mp running
    rcases List.mem_append.mp member with before | last
    · have known : (s.issue i effect).Known other :=
        tracked.known other (isRunning_iff.mpr ⟨own, before⟩)
      refine known.enter fun knows => ?_
      change (s.phase i).Knows other at knows
      rw [free] at knows
      simp [Phase.Knows, Phase.pending] at knows
    · obtain ⟨rfl, -⟩ := Prod.mk.inj (List.mem_singleton.mp last)
      refine .inr ⟨i, ?_⟩
      rw [phase_enter, if_pos rfl]
      exact .inl rfl
  · simp only [Phase.calling.injEq, reduceCtorEq, or_false] at same
    rw [← same]
    rfl

theorem Tracked.land (tracked : s.Tracked) (t : Ticket ι) (effect : σ → σ) :
    (s.land t effect).Tracked := by
  refine ⟨fun other running => ?_, tracked.own, tracked.clear⟩
  obtain ⟨own, member⟩ := isRunning_iff.mp running
  exact tracked.known other (isRunning_iff.mpr ⟨own, (List.mem_filter.mp member).1⟩)

theorem Tracked.step (tracked : s.Tracked) (step : Step s s') : s'.Tracked := by
  cases step with
  | freed looking empty =>
    exact tracked.go (by simp [looking, Phase.Knows, Phase.pending]) (by simp) fun _ => empty
  | took looking => exact tracked.take looking
  | waited waits =>
    exact tracked.go (by simp [waits, Phase.Knows, Phase.pending]) (by simp) (by simp)
  | @met i first rest waits finished =>
    refine tracked.go (fun t running => ?_) (by simp) (by simp)
    have different : t ≠ first := fun same => finished (same ▸ running)
    simp [waits, Phase.Knows, Phase.pending, different]
  | issued free effect => exact tracked.issue free effect
  | @answered i called calls finished =>
    refine tracked.go (fun t running => ?_) (by simp) (by simp)
    have different : called ≠ t := fun same => finished (same ▸ running)
    simp [calls, Phase.Knows, Phase.pending, different]
  | expired calls =>
    refine tracked.go (fun t running => ?_) (fun t same => ?_) (by simp)
    · simp [calls, Phase.Knows, Phase.pending]
    · simp only [reduceCtorEq, Phase.late.injEq, false_or] at same
      exact same ▸ tracked.own _ _ (.inl calls)
  | pushed late => exact tracked.push late
  | landed member => exact tracked.land _ _

/-! ### Reached states -/

variable {kind : Runs ι σ → Prop} {store : σ}

theorem Reached.tracked (reached : Reached kind store s) : s.Tracked := by
  induction reached with
  | start =>
    exact ⟨fun t running => (nomatch running),
      fun i t known => known.elim (fun calling => (nomatch calling)) fun late => (nomatch late),
      fun i free => (nomatch free)⟩
  | turn t _ took _ ih => exact ih.step (turn?_step took)

/-- An unfinished call of a run that may issue the next one is waited for by another run. -/
theorem Tracked.taken (tracked : s.Tracked) (free : s.phase i = .free)
    (running : s.isRunning t = true) (own : t.run = i) : ∃ j, j ≠ i ∧ t ∈ (s.phase j).pending := by
  -- only a run itself puts its calls on the list, and this one found the list empty
  rcases tracked.known t running with listed | ⟨j, knows⟩
  · exact absurd own (tracked.clear i free t listed)
  · have different : j ≠ i := by
      intro same
      rw [same, free] at knows
      simp [Phase.Knows, Phase.pending] at knows
    refine ⟨j, different, ?_⟩
    rcases knows with calling | late | waits
    · exact absurd ((tracked.own j t (.inl calling)).symm.trans own) different
    · exact absurd ((tracked.own j t (.inr late)).symm.trans own) different
    · exact waits

/-! ### The order of the effects -/

def Apart (i : ι) (s : Runs ι σ) : Prop := ∀ j, j ≠ i → ∀ t ∈ (s.phase j).pending, t.run ≠ i

def callsOf (i : ι) (calls : List (Ticket ι × (σ → σ))) : List (Ticket ι × (σ → σ)) :=
  calls.filter (·.1.run = i)

/-- All calls of a run but the newest one have taken effect, in their order. -/
structure InOrder (i : ι) (s : Runs ι σ) : Prop where
  numbers : (callsOf i s.landed ++ callsOf i s.running).map (·.1.number) = List.range (s.issued i)
  single : (callsOf i s.running).length ≤ 1

theorem callsOf_running_of_free (tracked : s.Tracked) (apart : s.Apart i)
    (free : s.phase i = .free) : callsOf i s.running = [] := by
  refine List.filter_eq_nil_iff.mpr fun call member own => ?_
  have own : call.1.run = i := of_decide_eq_true own
  obtain ⟨j, different, waits⟩ := tracked.taken free (isRunning_iff.mpr ⟨call.2, member⟩) own
  exact apart j different call.1 waits own

theorem InOrder.issue (ordered : InOrder i s) (tracked : s.Tracked) (apart : s.Apart i) {j : ι}
    (free : s.phase j = .free) (effect : σ → σ) (phase : Phase ι) :
    InOrder i ((s.issue j effect).enter j phase) := by
  obtain ⟨numbers, single⟩ := ordered
  by_cases own : j = i
  · subst own
    have none := callsOf_running_of_free tracked apart free
    have behind : callsOf j (s.issue j effect).running = [(s.next j, effect)] := by
      have added : callsOf j (s.issue j effect).running =
          callsOf j s.running ++ callsOf j [(s.next j, effect)] := List.filter_append ..
      rw [added, none]
      simp [callsOf, next]
    rw [none, List.append_nil] at numbers
    constructor
    · change (callsOf j s.landed ++ callsOf j (s.issue j effect).running).map _ =
        List.range (Function.update s.issued j (s.issued j + 1) j)
      rw [behind, List.map_append, numbers, Function.update_self, List.range_succ]
      rfl
    · exact Nat.le_of_eq (congrArg List.length behind)
  · have same : callsOf i (s.issue j effect).running = callsOf i s.running := by
      have added : callsOf i (s.issue j effect).running =
          callsOf i s.running ++ callsOf i [(s.next j, effect)] := List.filter_append ..
      rw [added]
      simp [callsOf, next, own]
    constructor
    · change (callsOf i s.landed ++ callsOf i (s.issue j effect).running).map _ =
        List.range (Function.update s.issued j (s.issued j + 1) i)
      rw [same, numbers, Function.update_of_ne (Ne.symm own)]
    · exact Nat.le_trans (Nat.le_of_eq (congrArg List.length same)) single

theorem InOrder.land (ordered : InOrder i s) {effect : σ → σ} (member : (t, effect) ∈ s.running) :
    InOrder i (s.land t effect) := by
  obtain ⟨numbers, single⟩ := ordered
  have left : callsOf i (s.land t effect).running = (callsOf i s.running).filter (·.1 ≠ t) := by
    unfold callsOf Runs.land
    rw [List.filter_filter, List.filter_filter]
    simp only [Bool.and_comm]
  by_cases own : t.run = i
  · -- a run has one call under way at most, so this is the one that comes next in order
    have only : callsOf i s.running = [(t, effect)] := by
      have among : (t, effect) ∈ callsOf i s.running :=
        List.mem_filter.mpr ⟨member, decide_eq_true own⟩
      obtain ⟨call, shape⟩ := List.length_eq_one_iff.mp
        (Nat.le_antisymm single (List.length_pos_of_mem among))
      rw [shape] at among ⊢
      rw [List.mem_singleton.mp among]
    have landed : callsOf i (s.land t effect).landed = callsOf i s.landed ++ [(t, effect)] := by
      have added : callsOf i (s.land t effect).landed =
          callsOf i s.landed ++ callsOf i [(t, effect)] := List.filter_append ..
      rw [added]
      simp [callsOf, own]
    rw [only] at numbers left
    constructor
    · rw [landed, left]
      simpa [Runs.land] using numbers
    · rw [left]
      simp
  · have landed : callsOf i (s.land t effect).landed = callsOf i s.landed := by
      have added : callsOf i (s.land t effect).landed =
          callsOf i s.landed ++ callsOf i [(t, effect)] := List.filter_append ..
      rw [added]
      simp [callsOf, own]
    have kept : (callsOf i s.running).filter (·.1 ≠ t) = callsOf i s.running := by
      refine List.filter_eq_self.mpr fun call among => decide_eq_true fun same => own ?_
      exact same ▸ of_decide_eq_true (List.mem_filter.mp among).2
    rw [kept] at left
    exact ⟨by rw [landed, left]; exact numbers, left ▸ single⟩

theorem InOrder.step (ordered : InOrder i s) (tracked : s.Tracked) (apart : s.Apart i)
    (step : Step s s') : InOrder i s' := by
  cases step with
  | issued free effect => exact ordered.issue tracked apart free effect _
  | landed member => exact ordered.land member
  | freed | took | waited | met | answered | expired | pushed =>
    exact ⟨ordered.numbers, ordered.single⟩

theorem Reached.inOrder (reached : Reached kind store s) (apart : ∀ s, kind s → s.Apart i) :
    InOrder i s ∧ s.Apart i := by
  induction reached with
  | start => exact ⟨⟨rfl, Nat.zero_le 1⟩, fun j _ t waits => (nomatch waits)⟩
  | turn t before took allowed ih =>
    exact ⟨ih.1.step before.tracked ih.2 (turn?_step took), apart _ allowed⟩

theorem Reached.store_eq (reached : Reached kind store s) :
    s.store = s.landed.foldl (fun store call => call.2 store) store := by
  induction reached with
  | start => rfl
  | turn t _ took _ ih =>
    cases turn?_step took with
    | landed member =>
      rw [land, List.foldl_append, ← ih]
      rfl
    | freed | took | waited | met | issued | answered | expired | pushed => exact ih

/-- The store is what the finished calls made of it, in the order in which they finished. A run
that may issue a call has an unfinished one exactly if another run has taken it from the list and
still waits for it. If no other run ever does so, the effects of the run come in the order of its
calls, and all of them are there when it issues the next one. -/
theorem overtaken_iff_taken (reached : Reached kind store s) (i : ι) :
    s.store = s.landed.foldl (fun store call => call.2 store) store ∧
    (s.phase i = .free →
      ((∃ t, t.run = i ∧ s.isRunning t = true) ↔
        ∃ j, j ≠ i ∧ ∃ t ∈ (s.phase j).pending, t.run = i ∧ s.isRunning t = true)) ∧
    ((∀ s, kind s → s.Apart i) →
      (callsOf i s.landed).map (·.1.number) <+: List.range (s.issued i) ∧
      (s.phase i = .free →
        (callsOf i s.landed).map (·.1.number) = List.range (s.issued i))) := by
  refine ⟨reached.store_eq, fun free => ⟨?_, ?_⟩, fun apart => ?_⟩
  · rintro ⟨t, own, running⟩
    obtain ⟨j, different, waits⟩ := reached.tracked.taken free running own
    exact ⟨j, different, t, waits, own, running⟩
  · rintro ⟨j, -, t, -, own, running⟩
    exact ⟨t, own, running⟩
  · obtain ⟨ordered, alone⟩ := reached.inOrder apart
    have numbers := ordered.numbers
    rw [List.map_append] at numbers
    refine ⟨⟨_, numbers⟩, fun free => ?_⟩
    rw [callsOf_running_of_free reached.tracked alone free] at numbers
    simpa using numbers

theorem store_settle_calls (k : Conditions σ) (calls : List (Call σ Unit)) (b : Bench σ) :
    (calls.foldl (fun b c => (b.call k c).2) b).settle.store =
      calls.foldl (fun store c => (c store).after) b.settle.store := by
  induction calls generalizing b with
  | nil => rfl
  | cons c rest ih =>
    rw [List.foldl_cons, List.foldl_cons, ih, Bench.store_settle_call]

theorem lone_run_agrees [Subsingleton ι] (reached : Reached kind store s) (i : ι)
    (free : s.phase i = .free) (calls : List (Call σ Unit))
    (made : s.landed.map (·.2) = calls.map fun c store => (c store).after) (k : Conditions σ)
    (b : Bench σ) (same : b.settle.store = store) :
    s.running = [] ∧ s.landed.map (·.1.number) = List.range (s.issued i) ∧
      s.store = (calls.foldl (fun b c => (b.call k c).2) b).settle.store := by
  have alone : ∀ s, kind s → s.Apart i := fun _ _ j different =>
    absurd (Subsingleton.elim j i) different
  have every : ∀ calls : List (Ticket ι × (σ → σ)), callsOf i calls = calls := fun calls =>
    List.filter_eq_self.mpr fun call _ => decide_eq_true (Subsingleton.elim call.1.run i)
  have finished := callsOf_running_of_free reached.tracked (reached.inOrder alone).2 free
  have numbers := (reached.inOrder alone).1.numbers
  rw [finished, List.append_nil, every] at numbers
  rw [every] at finished
  refine ⟨finished, numbers, ?_⟩
  have effects : s.store = (s.landed.map (·.2)).foldl (fun store effect => effect store) store := by
    rw [reached.store_eq, List.foldl_map]
  rw [effects, made, List.foldl_map, store_settle_calls, same]

/-! ### Two runs -/

def noFiles : Memory := {}

def write (text : String) (m : Memory) : Memory := m.tryPut ⟨"a.js"⟩ (some text)

/-- The run `true` makes a call that comes too late. -/
def lateCall : List (Turn Bool Memory) :=
  [.take true, .issue true (write "one"), .expire true, .push true]

/-- It takes the call itself, and waits for it. -/
def waitedFor : List (Turn Bool Memory) :=
  lateCall ++ [.take true, .finish ⟨true, 0⟩, .await true, .await true, .take true]

theorem late_call_waited_for :
    ∃ s : Runs Bool Memory,
      (start noFiles).turns? (fun s => s.phase false = .looking) waitedFor = some s ∧
      s.phase true = .free ∧ (callsOf true s.landed).map (·.1.number) = [0] ∧
      s.store.get? ⟨"a.js"⟩ = some "one" := by
  obtain ⟨s, took⟩ : ∃ s : Runs Bool Memory,
      (start noFiles).turns? (fun s => s.phase false = .looking) waitedFor = some s := ⟨_, rfl⟩
  obtain ⟨free, store, issued⟩ : s.phase true = .free ∧ s.store.get? ⟨"a.js"⟩ = some "one" ∧
      s.issued true = 1 := by
    cases took
    exact ⟨rfl, rfl, rfl⟩
  have apart : ∀ s : Runs Bool Memory, decide (s.phase false = .looking) = true →
      s.Apart true := by
    intro s looking j different t waits
    rw [Bool.eq_false_iff.mpr different, of_decide_eq_true looking] at waits
    cases waits
  obtain ⟨-, -, order⟩ := overtaken_iff_taken (Reached.start.turns took) true
  have numbers := (order apart).2 free
  rw [issued] at numbers
  exact ⟨s, took, free, numbers, store⟩

/-- The other run takes the late call, and so it comes behind the next one. -/
theorem taken_call_is_overtaken :
    ∃ s s' : Runs Bool Memory,
      (start noFiles).turns? (fun _ => true) (lateCall ++ [.take false, .take true]) = some s ∧
      s.phase true = .free ∧ s.isRunning ⟨true, 0⟩ = true ∧
      s.turns? (fun _ => true) [.issue true (write "two"), .finish ⟨true, 1⟩, .finish ⟨true, 0⟩] =
        some s' ∧
      (callsOf true s'.landed).map (·.1.number) = [1, 0] ∧
      s'.store.get? ⟨"a.js"⟩ = some "one" :=
  ⟨_, _, rfl, rfl, rfl, rfl, rfl, rfl⟩

end Runs

end Uplift
