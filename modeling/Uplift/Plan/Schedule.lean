import Uplift.Plan
import Uplift.Settings

/-!
# Milestones

The steps fall into milestones of one size, the last one may be shorter. Each milestone
waits for the one before it, and every other one, from the first, is a place to stop.
-/

namespace Uplift

def totalSeconds (steps : List Step) : Nat := steps.foldr (fun step n => step.seconds + n) 0

namespace Milestone

/-- A milestone's id by its position. -/
def idAt (index : Nat) : String := s!"milestone-{index}"

def ofChunk (size index : Nat) (chunk : List Step) : Milestone where
  id := idAt index
  name := s!"Milestone {index + 1}: steps {index * size + 1}-{index * size + chunk.length}"
  steps := chunk.map (·.id)
  dependsOn := if index = 0 then none else some (idAt (index - 1))
  seconds := totalSeconds chunk

/-- Milestones of `size + 1` steps, the first of them at position `index`. -/
def chunked (size index : Nat) (steps : List Step) : List Milestone :=
  match steps with
  | [] => []
  | step :: rest =>
    ofChunk (size + 1) index (step :: rest.take size) :: chunked size (index + 1) (rest.drop size)
termination_by steps.length
decreasing_by simp only [List.length_drop, List.length_cons]; omega

end Milestone

/-- Every other element, from the first. -/
def everyOther {α : Type} : List α → List α
  | a :: _ :: rest => a :: everyOther rest
  | rest => rest

def Schedule.ofSteps (steps : List Step) (policy : SchedulePolicy) : Schedule :=
  let milestones := Milestone.chunked (policy.milestoneSize - 1) 0 steps
  { seconds := totalSeconds steps
    milestones := milestones
    rollbackPoints := everyOther (milestones.map (·.id)) }

end Uplift
