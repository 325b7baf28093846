import Mathlib.Algebra.Ring.Nat
import Uplift.Proofs.Plan.Identity

/-!
# The milestones of a schedule

The milestone at a position stands for the run of steps at that position (`getElem?_chunked`),
and the milestones before it for all steps before that run (`take_chunked`). So a schedule
parts the steps of a plan in order into milestones of one size, of which only the last one may
be shorter (`ofSteps_partitions`).
-/

namespace Uplift

theorem getElem?_everyOther {α : Type} (xs : List α) (k : Nat) :
    (everyOther xs)[k]? = xs[2 * k]? := by
  fun_induction everyOther xs generalizing k with
  | case1 a b rest ih =>
    cases k with
    | zero => rfl
    | succ k =>
      rw [List.getElem?_cons_succ, ih, show 2 * (k + 1) = 2 * k + 1 + 1 by omega,
        List.getElem?_cons_succ, List.getElem?_cons_succ]
  | case2 xs short =>
    -- At most one element is left, and it stands at both positions if it stands at one.
    match xs, short with
    | [], _ => rfl
    | [a], _ => cases k <;> simp [Nat.mul_add]
    | a :: b :: rest, short => exact absurd rfl (short a b rest)

theorem totalSeconds_eq_sum (steps : List Step) :
    totalSeconds steps = (steps.map (·.seconds)).sum := by
  rw [totalSeconds, List.sum, List.foldr_map]

theorem totalSeconds_append (front back : List Step) :
    totalSeconds (front ++ back) = totalSeconds front + totalSeconds back := by
  simp only [totalSeconds_eq_sum, List.map_append, List.sum_append]

namespace Milestone

theorem getElem?_chunked (size index : Nat) (steps : List Step) (k : Nat) :
    (chunked size index steps)[k]? =
      if k * (size + 1) < steps.length then
        some (ofChunk (size + 1) (index + k) ((steps.drop (k * (size + 1))).take (size + 1)))
      else none := by
  fun_induction chunked size index steps generalizing k with
  | case1 => simp
  | case2 index step rest ih =>
    cases k with
    | zero => simp
    | succ k =>
      have past : (k + 1) * (size + 1) = k * (size + 1) + size + 1 := by
        rw [Nat.add_mul, Nat.one_mul, Nat.add_assoc]
      have behind : k * (size + 1) < rest.length - size ↔
          k * (size + 1) + size + 1 < rest.length + 1 := by omega
      rw [List.getElem?_cons_succ, ih, List.length_drop, List.drop_drop, past, List.drop_succ_cons,
        List.length_cons, Nat.add_comm size (k * _), Nat.add_assoc index, Nat.add_comm 1 k]
      exact if_congr behind rfl rfl

theorem take_chunked (size index : Nat) (steps : List Step) (k : Nat) :
    (chunked size index steps).take k = chunked size index (steps.take (k * (size + 1))) := by
  induction k generalizing index steps with
  | zero => simp [chunked]
  | succ k ih =>
    cases steps with
    | nil => simp [chunked]
    | cons step rest =>
      have past : (k + 1) * (size + 1) = k * (size + 1) + size + 1 := by
        rw [Nat.add_mul, Nat.one_mul, Nat.add_assoc]
      rw [past, List.take_succ_cons, chunked, chunked, List.take_succ_cons, ih, List.take_take,
        List.drop_take, Nat.min_eq_left (Nat.le_add_left _ _), Nat.add_sub_cancel]

theorem seconds_chunked (size index : Nat) (steps : List Step) :
    ((chunked size index steps).map (·.seconds)).sum = totalSeconds steps := by
  fun_induction chunked size index steps with
  | case1 => rfl
  | case2 index step rest ih =>
    have own : (ofChunk (size + 1) index (step :: rest.take size)).seconds =
      totalSeconds (step :: rest.take size) := rfl
    rw [List.map_cons, List.sum_cons, ih, own, ← totalSeconds_append, List.cons_append,
      List.take_append_drop]

end Milestone

/-! ### Schedules -/

/-- The schedule parts the steps in their order into milestones of one size. -/
structure Schedule.Partitions (size : Nat) (steps : List Step) (s : Schedule) : Prop where
  /-- One after another the milestones list the ids of the steps. -/
  inOrder : s.milestones.flatMap (·.steps) = steps.map (·.id)
  nonempty : ∀ m ∈ s.milestones, m.steps ≠ []
  atMost : ∀ m ∈ s.milestones, m.steps.length ≤ size
  /-- Only the last milestone may be shorter. -/
  full : ∀ m ∈ s.milestones.dropLast, m.steps.length = size
  id_eq : ∀ (i : Nat) (m : Milestone), s.milestones[i]? = some m → m.id = s!"milestone-{i}"
  /-- The positions of the first and the last step are counted from one, over all steps. -/
  name_eq : ∀ (i : Nat) (m : Milestone), s.milestones[i]? = some m →
    let before := (s.milestones.take i).flatMap (·.steps)
    m.name = s!"Milestone {i + 1}: steps {before.length + 1}-{before.length + m.steps.length}"
  first_waits : ∀ m ∈ s.milestones[0]?, m.dependsOn = none
  next_waits : ∀ (i : Nat) (before m : Milestone), s.milestones[i]? = some before →
    s.milestones[i + 1]? = some m → m.dependsOn = some before.id
  seconds_eq : s.seconds = (steps.map (·.seconds)).sum
  milestones_seconds : (s.milestones.map (·.seconds)).sum = s.seconds
  /-- The milestones at even positions, in their order, are the places to stop. -/
  rollbackPoints : ∀ k : Nat, s.rollbackPoints[k]? = s.milestones[2 * k]?.map (·.id)

namespace Milestone

variable {size : Nat} {steps : List Step} {i : Nat} {m : Milestone}

theorem chunked_at (there : (chunked size 0 steps)[i]? = some m) :
    i * (size + 1) < steps.length ∧
      m = ofChunk (size + 1) i ((steps.drop (i * (size + 1))).take (size + 1)) := by
  rw [getElem?_chunked, Nat.zero_add] at there
  split at there
  case isTrue within => exact ⟨within, (Option.some.inj there).symm⟩
  case isFalse => cases there

theorem length_steps (there : (chunked size 0 steps)[i]? = some m) :
    m.steps.length = min (size + 1) (steps.length - i * (size + 1)) := by
  obtain ⟨-, rfl⟩ := chunked_at there
  rw [ofChunk, List.length_map, List.length_take, List.length_drop]

theorem length_before (there : (chunked size 0 steps)[i]? = some m) :
    (((chunked size 0 steps).take i).flatMap (·.steps)).length = i * (size + 1) := by
  have within := (chunked_at there).1
  rw [take_chunked, steps_chunked, List.length_map, List.length_take,
    Nat.min_eq_left (Nat.le_of_lt within)]

end Milestone

/-- However many steps there are, a schedule parts them into milestones of the size that the
policy sets, or of one step where it sets none. -/
theorem Schedule.ofSteps_partitions (steps : List Step) (policy : SchedulePolicy) :
    (ofSteps steps policy).Partitions (max policy.milestoneSize 1) steps := by
  have size : max policy.milestoneSize 1 = policy.milestoneSize - 1 + 1 := by omega
  rw [size, ofSteps]
  generalize policy.milestoneSize - 1 = size
  constructor
  case inOrder => exact Milestone.steps_chunked size 0 steps
  case nonempty =>
    intro m member
    obtain ⟨i, there⟩ := List.getElem?_of_mem member
    have within := (Milestone.chunked_at there).1
    have length := Milestone.length_steps there
    exact List.ne_nil_of_length_pos (by omega)
  case atMost =>
    intro m member
    obtain ⟨i, there⟩ := List.getElem?_of_mem member
    rw [Milestone.length_steps there]
    exact Nat.min_le_left ..
  case full =>
    intro m member
    obtain ⟨i, there⟩ := List.getElem?_of_mem member
    rw [List.getElem?_dropLast] at there
    split at there
    case isFalse => cases there
    case isTrue before =>
      -- Another milestone follows, so its steps are left behind this one's.
      have next := List.getElem?_eq_getElem (Nat.add_lt_of_lt_sub before)
      have within := (Milestone.chunked_at next).1
      rw [Nat.add_mul, Nat.one_mul] at within
      rw [Milestone.length_steps there]
      omega
  case id_eq =>
    intro i m there
    rw [(Milestone.chunked_at there).2]
    rfl
  case name_eq =>
    intro i m there before
    have length : before.length = i * (size + 1) := Milestone.length_before there
    rw [length, (Milestone.chunked_at there).2, Milestone.ofChunk, List.length_map]
  case first_waits =>
    intro m there
    rw [(Milestone.chunked_at there).2]
    rfl
  case next_waits =>
    intro i before m here next
    rw [(Milestone.chunked_at here).2, (Milestone.chunked_at next).2]
    rfl
  case seconds_eq => exact totalSeconds_eq_sum steps
  case milestones_seconds => exact Milestone.seconds_chunked size 0 steps
  case rollbackPoints =>
    intro k
    rw [getElem?_everyOther, List.getElem?_map]

end Uplift
