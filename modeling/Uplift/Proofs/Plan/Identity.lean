import Mathlib.Data.List.Nodup
import Uplift.Proofs.Plan.Building
import Uplift.Proofs.Text.Splitting

/-!
# Ids of steps

An id ends in a number, and whatever stands before its last colon, that number is the position
of the step in its plan (`position_derive`). So the steps of a plan have distinct ids
(`ids_nodup_of_built`), and as its milestones list the same ids in the same order
(`milestones_of_built`), each of them stands in one milestone.
-/

namespace Uplift

namespace StepId

def position (id : StepId) : Nat :=
  Nat.ofDigitChars 10 (id.text.toList.reverse.takeWhile (· ≠ ':')).reverse 0

theorem takeWhile_of_notMem {digits : List Char} (free : ':' ∉ digits) (front : List Char) :
    (digits.reverse ++ ':' :: front).takeWhile (· ≠ ':') = digits.reverse := by
  rw [List.takeWhile_append_of_pos fun c member => ?_]
  · simp
  · rw [decide_eq_true_eq]
    rintro rfl
    exact free (List.mem_reverse.mp member)

theorem toList_derive (origin : String) (path : Path) (n : Nat) :
    (derive origin path n).text.toList =
      origin.toList ++ ':' :: path.text.toList ++ ':' :: Nat.toDigits 10 n := by
  have parts : (derive origin path n).text = origin ++ ":" ++ path.text ++ ":" ++ n.repr := by
    simp [derive, ToString.toString]
  simp [parts]

/-- Neither colons nor digits in front of it hide the position. -/
theorem position_derive (origin : String) (path : Path) (n : Nat) :
    (derive origin path n).position = n := by
  unfold position
  rw [toList_derive, List.reverse_append, List.reverse_cons, List.append_assoc,
    List.singleton_append, takeWhile_of_notMem (Text.notMem_digits (by decide) n), List.reverse_reverse,
    Nat.ofDigitChars_ten_toDigits]

end StepId

theorem Milestone.steps_chunked (size index : Nat) (steps : List Step) :
    (chunked size index steps).flatMap (·.steps) = steps.map (·.id) := by
  fun_induction chunked size index steps with
  | case1 => rfl
  | case2 index step rest ih =>
    rw [List.flatMap_cons, ih, ofChunk, ← List.map_append, List.cons_append,
      List.take_append_drop]

namespace Plan

variable {σ : Type} [FileStore σ] {id : String} {now : Timestamp} {s : Settings} {store : σ}
  {patterns : List Pattern} {r : Request} {plan : Plan}

theorem position_of_built (built : build id now s store patterns r = .ok plan) {i : Nat}
    {step : Step} (there : plan.steps[i]? = some step) : step.id.position = i := by
  obtain ⟨listed, rewrites, -, -, rfl⟩ := build_ok built
  unfold ofSteps at there
  rw [List.getElem?_append] at there
  split at there
  · rw [codeSteps, List.getElem?_mapIdx] at there
    obtain ⟨⟨path, rewrite⟩, -, rfl⟩ := Option.map_eq_some_iff.mp there
    exact StepId.position_derive ..
  · rename_i beside
    have sum := Nat.add_sub_cancel' (Nat.not_lt.mp beside)
    obtain rfl | rfl | rfl := auxiliarySteps_at there <;>
      exact (StepId.position_derive ..).trans sum

theorem ids_nodup_of_built (built : build id now s store patterns r = .ok plan) :
    (plan.steps.map (·.id)).Nodup := by
  refine List.Nodup.of_map StepId.position ?_
  have positions : (plan.steps.map (·.id)).map StepId.position =
      List.range plan.steps.length := by
    refine List.ext_getElem (by simp) fun i bound _ => ?_
    simp only [List.length_map] at bound
    simp [position_of_built built (List.getElem?_eq_getElem bound)]
  rw [positions]
  exact List.nodup_range

theorem milestones_of_built (built : build id now s store patterns r = .ok plan) :
    plan.schedule.milestones.flatMap (·.steps) = plan.steps.map (·.id) := by
  obtain ⟨listed, rewrites, -, -, rfl⟩ := build_ok built
  exact Milestone.steps_chunked ..

theorem step?_of_nodup (distinct : (plan.steps.map (·.id)).Nodup) {step : Step}
    (member : step ∈ plan.steps) : plan.step? step.id = some step := by
  unfold step?
  cases found : plan.steps.find? (·.id = step.id) with
  | none => simpa using List.find?_eq_none.mp found step member
  | some other =>
    have same : other.id = step.id := by simpa using List.find?_some found
    rw [List.inj_on_of_nodup_map distinct (List.mem_of_find?_eq_some found) member same]

/-- If the milestones list no id twice, then an id that they list is in one of them alone. -/
theorem existsUnique_milestone {milestones : List Milestone}
    (distinct : (milestones.flatMap (·.steps)).Nodup) {id : StepId}
    (member : id ∈ milestones.flatMap (·.steps)) :
    ∃! k : Nat, ∃ milestone : Milestone,
      milestones[k]? = some milestone ∧ id ∈ milestone.steps := by
  have apart {k k' : Nat} {a b : Milestone} (before : k < k') (first : milestones[k]? = some a)
      (second : milestones[k']? = some b) (inFirst : id ∈ a.steps) : id ∉ b.steps := by
    obtain ⟨_, rfl⟩ := List.getElem?_eq_some_iff.mp first
    obtain ⟨_, rfl⟩ := List.getElem?_eq_some_iff.mp second
    exact List.pairwise_iff_getElem.mp (List.nodup_flatMap.mp distinct).2 _ _ _ _ before inFirst
  obtain ⟨milestone, among, listed⟩ := List.mem_flatMap.mp member
  obtain ⟨k, there⟩ := List.getElem?_of_mem among
  refine ⟨k, ⟨milestone, there, listed⟩, fun k' ⟨milestone', there', listed'⟩ => ?_⟩
  rcases Nat.lt_trichotomy k' k with before | same | behind
  · exact absurd listed (apart before there' there listed')
  · exact same
  · exact absurd listed' (apart behind there there' listed)

/-- The ids of the steps of a plan are pairwise distinct, whatever stands in the ids of the
patterns and in the paths. So each of them leads to its own step, and stands in exactly one
milestone. -/
theorem built_ids_locate (built : build id now s store patterns r = .ok plan) :
    (plan.steps.map (·.id)).Nodup ∧
      (∀ (i : Nat) (step : Step), plan.steps[i]? = some step → plan.step? step.id = some step) ∧
      ∀ step ∈ plan.steps, ∃! k : Nat, ∃ milestone : Milestone,
        plan.schedule.milestones[k]? = some milestone ∧ step.id ∈ milestone.steps := by
  have distinct := ids_nodup_of_built built
  refine ⟨distinct, fun i step there => ?_, fun step member => ?_⟩
  · exact step?_of_nodup distinct (List.mem_of_getElem? there)
  · rw [← milestones_of_built built] at distinct
    refine existsUnique_milestone distinct ?_
    rw [milestones_of_built built]
    exact List.mem_map_of_mem member

/-- Two files and two patterns whose names, joined with colons, read alike. -/
def colonFiles : Memory where
  files := .ofList [(⟨"b:0"⟩, "y"), (⟨"0"⟩, "x")]

def colonPatterns : List Pattern := [.replacing "a" "y" "z", .replacing "a:b" "x" "z"]

def colonRequest : Request := { source := "1", target := "2", move := .dependencyUpdate }

def colonPlan : Except EngineError Plan :=
  build "m" ⟨0, 0⟩ { schedule := ⟨2⟩ } colonFiles colonPatterns colonRequest

theorem colonPlan_located :
    ∃ plan, colonPlan = .ok plan ∧
      plan.steps.map (·.id.text) = ["a:b:0:0", "a:b:0:1", "dependency-update:package.json:2"] ∧
      (plan.steps.map (·.id)).Nodup ∧
      (∀ (i : Nat) (step : Step), plan.steps[i]? = some step → plan.step? step.id = some step) ∧
      ∀ step ∈ plan.steps, ∃! k : Nat, ∃ milestone : Milestone,
        plan.schedule.milestones[k]? = some milestone ∧ step.id ∈ milestone.steps := by
  obtain ⟨plan, built⟩ : ∃ plan, colonPlan = .ok plan := ⟨_, rfl⟩
  have ids : ∀ plan ∈ colonPlan.toOption, plan.steps.map (·.id.text) =
      ["a:b:0:0", "a:b:0:1", "dependency-update:package.json:2"] := by
    decide +kernel
  exact ⟨plan, built, ids plan (by rw [built]; rfl), built_ids_locate built⟩

end Plan

end Uplift
