import Mathlib.Data.List.Induction
import Uplift.Proofs.Plan.Building

/-!
# The files to copy

A plan that was built wants the file of every step copied, whatever the step does with it
(`backups_of_built`).
-/

namespace Uplift

theorem distinctPaths_append (steps : List Step) (s : Step) :
    distinctPaths (steps ++ [s]) =
      if (distinctPaths steps).any s.path.same then distinctPaths steps
      else distinctPaths steps ++ [s.path] := by
  unfold distinctPaths
  rw [List.foldl_append]
  rfl

theorem distinctPaths_spec (steps : List Step) :
    (∀ path ∈ distinctPaths steps, ∃ s ∈ steps, s.path = path) ∧
      (∀ s ∈ steps, ∃ path ∈ distinctPaths steps, s.path.same path = true) ∧
      (distinctPaths steps).Pairwise fun p q => p.same q = false := by
  induction steps using List.reverseRecOn with
  | nil => simp [distinctPaths]
  | append_singleton steps s ih =>
    obtain ⟨taken, found, once⟩ := ih
    have earlier (path : Path) (member : path ∈ distinctPaths steps) :
        ∃ s' ∈ steps ++ [s], s'.path = path := by
      obtain ⟨s', among, own⟩ := taken path member
      exact ⟨s', List.mem_append_left _ among, own⟩
    rw [distinctPaths_append]
    split
    · rename_i known
      refine ⟨earlier, fun s' member => ?_, once⟩
      rcases List.mem_append.mp member with among | last
      · exact found s' among
      · obtain rfl := List.mem_singleton.mp last
        exact List.any_eq_true.mp known
    · rename_i new
      refine ⟨fun path member => ?_, fun s' member => ?_, ?_⟩
      · rcases List.mem_append.mp member with among | last
        · exact earlier path among
        · exact ⟨s, by simp, (List.mem_singleton.mp last).symm⟩
      · rcases List.mem_append.mp member with among | last
        · obtain ⟨path, kept, same⟩ := found s' among
          exact ⟨path, List.mem_append_left _ kept, same⟩
        · obtain rfl := List.mem_singleton.mp last
          exact ⟨s'.path, by simp, s'.path.same_refl⟩
      · refine List.pairwise_append.mpr ⟨once, List.pairwise_singleton _ _, ?_⟩
        intro path member path' last
        obtain rfl := List.mem_singleton.mp last
        rw [Bool.eq_false_iff]
        exact fun same => new (List.any_eq_true.mpr ⟨path, member, Path.same_symm same⟩)

theorem Plan.backups_of_built {σ : Type} [FileStore σ] {id : String} {now : Timestamp}
    {s : Settings} {store : σ} {patterns : List Pattern} {r : Request} {plan : Plan}
    (built : Plan.build id now s store patterns r = .ok plan) :
    plan.risk.backups = distinctPaths plan.steps := by
  obtain ⟨listed, rewrites, -, -, rfl⟩ := build_ok built
  rfl

end Uplift
