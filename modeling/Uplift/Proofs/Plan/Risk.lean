import Uplift.Plan.Assessment

/-!
# Adding up risk

Whether the steps of a plan together reach a level depends on how many of them are at that
level or above, and more of them never take it away (`rank_le_overallOf`, `Reaches.mono`). So
a plan is weighed no lower for another step or for a riskier one, and the order of its steps
is of no account (`assessment_monotone`).
-/

namespace Uplift

theorem Risk.rank_inj {a b : Risk} : a.rank = b.rank ↔ a = b := by
  cases a <;> cases b <;> decide

theorem Risk.le_foldl_max (risks : List Risk) (sofar : Risk) :
    sofar.rank ≤ (risks.foldl max sofar).rank ∧
      ∀ r ∈ risks, r.rank ≤ (risks.foldl max sofar).rank := by
  induction risks generalizing sofar with
  | nil => exact ⟨Nat.le_refl _, nofun⟩
  | cons first rest ih =>
    obtain ⟨before, others⟩ := ih (max sofar first)
    rw [rank_max] at before
    rw [List.foldl_cons]
    refine ⟨Nat.le_trans (Nat.le_max_left ..) before, List.forall_mem_cons.mpr ⟨?_, others⟩⟩
    exact Nat.le_trans (Nat.le_max_right ..) before

theorem Risk.rank_le_worst {risks : List Risk} {r : Risk} (member : r ∈ risks) :
    r.rank ≤ (worst risks).rank :=
  (le_foldl_max risks low).2 r member

/-! ### Counting steps -/

def countAtLeast (level : Risk) (steps : List Step) : Nat :=
  steps.countP (level.rank ≤ ·.risk.rank)

theorem countAtLeast_critical (steps : List Step) :
    countAtLeast .critical steps = countRisk .critical steps := by
  refine List.countP_congr fun s _ => ?_
  cases s.risk <;> simp [Risk.rank]

theorem countAtLeast_eq (level above : Risk) (next : above.rank = level.rank + 1)
    (steps : List Step) :
    countAtLeast level steps = countRisk level steps + countAtLeast above steps := by
  unfold countAtLeast countRisk
  induction steps with
  | nil => rfl
  | cons s rest ih =>
    have same : s.risk = level ↔ s.risk.rank = level.rank := Risk.rank_inj.symm
    simp only [List.countP_cons, ih, next, same, decide_eq_true_eq]
    split <;> split <;> split <;> omega

theorem countAtLeast_mono {steps more : List Step} (added : steps.Sublist more) (level : Risk) :
    countAtLeast level steps ≤ countAtLeast level more :=
  added.countP_le

theorem countAtLeast_raise (front back : List Step) (s : Step) {raised : Risk}
    (higher : s.risk.rank ≤ raised.rank) (level : Risk) :
    countAtLeast level (front ++ s :: back) ≤
      countAtLeast level (front ++ { s with risk := raised } :: back) := by
  unfold countAtLeast
  simp only [List.countP_append, List.countP_cons]
  have own : (if decide (level.rank ≤ s.risk.rank) = true then 1 else 0) ≤
      if decide (level.rank ≤ raised.rank) = true then 1 else 0 := by
    simp only [decide_eq_true_eq]
    split <;> split <;> omega
  omega

/-! ### The risk of all steps -/

namespace RiskAssessment

def Reaches (p : RiskPolicy) (steps : List Step) : Risk → Prop
  | .low => True
  | .medium => 0 < countAtLeast .high steps ∨ p.mediumThreshold < countAtLeast .medium steps
  | .high => 0 < countAtLeast .critical steps ∨ p.highThreshold < countAtLeast .high steps
  | .critical => 0 < countAtLeast .critical steps

theorem Reaches.mono {p : RiskPolicy} {steps more : List Step} {level : Risk}
    (reaches : Reaches p steps level)
    (atLeast : ∀ level, countAtLeast level steps ≤ countAtLeast level more) :
    Reaches p more level := by
  have medium := atLeast .medium
  have high := atLeast .high
  have critical := atLeast .critical
  cases level <;> simp only [Reaches] at reaches ⊢ <;> omega

theorem rank_le_overallOf (p : RiskPolicy) (steps : List Step) (level : Risk) :
    level.rank ≤ (overallOf p steps).rank ↔ Reaches p steps level := by
  unfold overallOf
  -- With all counts taken at a level or above it, each step of the cascade is arithmetic.
  have critical := countAtLeast_critical steps
  have high := countAtLeast_eq .high .critical rfl steps
  have medium := countAtLeast_eq .medium .high rfl steps
  dsimp only
  split
  case isTrue => cases level <;> simp [Reaches, Risk.rank] <;> omega
  case isFalse =>
    split
    case isTrue => cases level <;> simp [Reaches, Risk.rank] <;> omega
    case isFalse => split <;> cases level <;> simp [Reaches, Risk.rank] <;> omega

theorem overallOf_mono {p : RiskPolicy} {steps more : List Step}
    (atLeast : ∀ level, countAtLeast level steps ≤ countAtLeast level more) :
    (overallOf p steps).rank ≤ (overallOf p more).rank := by
  rw [rank_le_overallOf]
  exact ((rank_le_overallOf p steps _).mp (Nat.le_refl _)).mono atLeast

/-- The level that the steps reach together is reached by one of them alone, if it is not low. -/
theorem Reaches.alone {p : RiskPolicy} {steps : List Step} {level : Risk}
    (reaches : Reaches p steps level) : level = .low ∨ ∃ s ∈ steps, level.rank ≤ s.risk.rank := by
  have found {other : Risk} (some : 0 < countAtLeast other steps)
      (below : level.rank ≤ other.rank) : ∃ s ∈ steps, level.rank ≤ s.risk.rank := by
    obtain ⟨s, member, atLeast⟩ := List.countP_pos_iff.mp some
    exact ⟨s, member, Nat.le_trans below (of_decide_eq_true atLeast)⟩
  cases level with
  | low => exact .inl rfl
  | medium =>
    rcases reaches with some | more
    · exact .inr (found some (by decide))
    · exact .inr (found (Nat.zero_lt_of_lt more) (by decide))
  | high =>
    rcases reaches with some | more
    · exact .inr (found some (by decide))
    · exact .inr (found (Nat.zero_lt_of_lt more) (by decide))
  | critical => exact .inr (found reaches (by decide))

theorem overallOf_le_worst (p : RiskPolicy) (steps : List Step) :
    (overallOf p steps).rank ≤ (Risk.worst (steps.map (·.risk))).rank := by
  rcases ((rank_le_overallOf p steps _).mp (Nat.le_refl _)).alone with low | ⟨s, member, below⟩
  · rw [low]
    exact Nat.zero_le _
  · exact Nat.le_trans below (Risk.rank_le_worst (List.mem_map_of_mem member))

theorem overallOf_eq_critical (p : RiskPolicy) (steps : List Step) :
    overallOf p steps = .critical ↔ ∃ s ∈ steps, s.risk = .critical := by
  have reaches := rank_le_overallOf p steps .critical
  have top (r : Risk) : Risk.critical.rank ≤ r.rank ↔ r = .critical := by cases r <;> decide
  rw [top, Reaches, countAtLeast_critical, countRisk, List.countP_pos_iff] at reaches
  simpa using reaches

/-! ### Whole assessments -/

structure AtMost (a b : RiskAssessment) : Prop where
  overall : a.overall.rank ≤ b.overall.rank
  criticalSteps : a.criticalSteps ≤ b.criticalSteps
  downtime : a.downtime ≤ b.downtime
  rollbackComplexity : a.rollbackComplexity ≤ b.rollbackComplexity

structure SameFigures (a b : RiskAssessment) : Prop where
  overall : a.overall = b.overall
  criticalSteps : a.criticalSteps = b.criticalSteps
  downtime : a.downtime = b.downtime
  rollbackComplexity : a.rollbackComplexity = b.rollbackComplexity

theorem atMost_of_sublist (p : RiskPolicy) {steps more : List Step} (added : steps.Sublist more) :
    (ofSteps steps p).AtMost (ofSteps more p) where
  overall := overallOf_mono (countAtLeast_mono added)
  criticalSteps := added.countP_le
  downtime := by
    have weighed (level : Risk) (seconds : Nat) :
        countRisk level steps * seconds ≤ countRisk level more * seconds :=
      Nat.mul_le_mul_right seconds added.countP_le
    have each : steps.length * p.downtime.perStep ≤ more.length * p.downtime.perStep :=
      Nat.mul_le_mul_right _ added.length_le
    exact Nat.add_le_add (Nat.add_le_add (Nat.add_le_add (weighed .critical _) (weighed .high _))
      (weighed .medium _)) each
  rollbackComplexity := by
    have parts : steps.length / p.complexityDivisor ≤ more.length / p.complexityDivisor :=
      Nat.div_le_div_right added.length_le
    exact Nat.max_le.mpr ⟨Nat.le_trans parts (Nat.le_max_left ..), Nat.le_max_right ..⟩

theorem sameFigures_of_perm (p : RiskPolicy) {steps other : List Step} (perm : steps.Perm other) :
    (ofSteps steps p).SameFigures (ofSteps other p) := by
  have counts (level : Risk) : countRisk level steps = countRisk level other := perm.countP_eq _
  constructor <;> simp only [ofSteps, overallOf, downtimeOf, counts, perm.length_eq]

/-- A plan is critical if and only if one of its steps is, and never above the worst of them.
Another step anywhere lowers no figure, a higher risk of one step does not lower that of the
plan, and the order of the steps changes nothing. -/
theorem assessment_monotone (p : RiskPolicy) (steps : List Step) :
    let assessment := ofSteps steps p
    (assessment.overall = .critical ↔ ∃ s ∈ steps, s.risk = .critical) ∧
      assessment.overall.rank ≤ (Risk.worst (steps.map (·.risk))).rank ∧
      (∀ (front back : List Step) (s : Step), steps = front ++ back →
        assessment.AtMost (ofSteps (front ++ s :: back) p)) ∧
      (∀ (front back : List Step) (s : Step) (raised : Risk), steps = front ++ s :: back →
        s.risk.rank ≤ raised.rank → assessment.overall.rank ≤
          (ofSteps (front ++ { s with risk := raised } :: back) p).overall.rank) ∧
      ∀ other : List Step, steps.Perm other → assessment.SameFigures (ofSteps other p) := by
  intro assessment
  refine ⟨overallOf_eq_critical p steps, overallOf_le_worst p steps, ?_, ?_, ?_⟩
  · rintro front back s rfl
    exact atMost_of_sublist p ((List.Sublist.refl front).append (List.sublist_cons_self s back))
  · rintro front back s raised rfl higher
    exact overallOf_mono (countAtLeast_raise front back s higher)
  · intro other perm
    exact sameFigures_of_perm p perm

end RiskAssessment

end Uplift
