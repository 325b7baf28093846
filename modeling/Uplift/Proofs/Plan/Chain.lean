import Mathlib.Data.List.Forall2
import Uplift.Proofs.Files.Order
import Uplift.Proofs.Plan.Building

/-!
# The steps of a plan form chains

The rewrites of a text follow one another: each begins with what the one before it left. As
every file is listed once, the code steps of a plan do the same at each path, and the first
of them begins with what the file held when the plan was built (`chained_planned`).
-/

namespace Uplift

namespace Analysis

/-- The first rewrite begins with `current`, and each other one with what the one before it
left. -/
def Chains : String → List Rewrite → Prop
  | _, [] => True
  | current, r :: rest => r.before = current ∧ Chains r.after rest

theorem Chains.append {current : String} {first second : List Rewrite}
    (chains : Chains current first) (goesOn : Chains (lastText current first) second) :
    Chains current (first ++ second) := by
  induction first generalizing current with
  | nil => exact goesOn
  | cons r rest ih =>
    rw [lastText_cons] at goesOn
    exact ⟨chains.1, ih chains.2 goesOn⟩

theorem rewriteMatches_chains (p : Pattern) (drift : Drift) (current : String)
    (ms : List Match) : Chains current (rewriteMatches p drift current ms).1 := by
  induction ms generalizing drift current with
  | nil => trivial
  | cons m ms ih =>
    unfold rewriteMatches
    dsimp only
    split
    · exact ih drift current
    · exact ⟨rfl, ih _ _⟩

theorem rewritesBy_chains (find : Pattern → String → List Match) (ps : List Pattern)
    (current : String) : Chains current (rewritesBy find ps current) := by
  induction ps generalizing current with
  | nil => trivial
  | cons p ps ih =>
    unfold rewritesBy
    refine (rewriteMatches_chains p {} current _).append ?_
    rw [lastText_rewriteMatches]
    exact ih _

theorem rewritesOf_chains (ps : List Pattern) (current : String) :
    Chains current (rewritesOf ps current) := rewritesBy_chains Pattern.find ps current

end Analysis

/-! ### Chained steps -/

def Step.contentAfter (s : Step) (content : Path → Option String) (q : Path) : Option String :=
  if q.same s.path then s.transformed else content q

/-- Every step was planned for what is at its path when the steps before it are through. -/
def Chained : (Path → Option String) → List Step → Prop
  | _, [] => True
  | content, s :: rest => content s.path = s.original ∧ Chained (s.contentAfter content) rest

theorem Chained.congr {content content' : Path → Option String} {steps : List Step}
    (chained : Chained content steps) (agree : ∀ s ∈ steps, content' s.path = content s.path) :
    Chained content' steps := by
  induction steps generalizing content content' with
  | nil => trivial
  | cons s rest ih =>
    refine ⟨(agree s List.mem_cons_self).trans chained.1, ih chained.2 fun t member => ?_⟩
    unfold Step.contentAfter
    rw [agree t (List.mem_cons_of_mem _ member)]

structure Step.StandsFor (s : Step) (r : Rewrite) : Prop where
  pattern : s.pattern = some r.pattern.id
  original : s.original = some r.before
  transformed : s.transformed = some r.after

namespace Plan

/-- The steps stand for the rewrites; where in the plan they are shows in their ids alone. -/
structure Renders (step : Nat → Path × Rewrite → Step) : Prop where
  path : ∀ i entry, (step i entry).path = entry.1
  standsFor : ∀ i entry, (step i entry).StandsFor entry.2

theorem renders_ofRewrite (policy : RiskPolicy) :
    Renders fun i (path, r) => Step.ofRewrite policy path i r :=
  ⟨fun _ _ => rfl, fun _ _ => ⟨rfl, rfl, rfl⟩⟩

variable {step : Nat → Path × Rewrite → Step}

theorem Renders.shift (renders : Renders step) (n : Nat) : Renders fun i => step (i + n) :=
  ⟨fun i => renders.path (i + n), fun i => renders.standsFor (i + n)⟩

/-- The steps whose paths are kept stand for the rewrites that are kept, in the same order. -/
theorem Renders.filtered (renders : Renders step) (rewrites : List (Path × Rewrite))
    (keep : Path → Bool) :
    List.Forall₂ Step.StandsFor ((rewrites.mapIdx step).filter fun s => keep s.path)
      ((rewrites.filter fun entry => keep entry.1).map (·.2)) := by
  induction rewrites generalizing step with
  | nil => exact .nil
  | cons entry rest ih =>
    rw [List.mapIdx_cons, List.filter_cons, List.filter_cons, renders.path]
    split
    · exact .cons (renders.standsFor 0 entry) (ih (renders.shift 1))
    · exact ih (renders.shift 1)

theorem Renders.at_path (renders : Renders step) (rewrites : List (Path × Rewrite)) (q : Path) :
    List.Forall₂ Step.StandsFor ((rewrites.mapIdx step).filter (·.path.same q))
      (rewritesAt q rewrites) :=
  renders.filtered rewrites (·.same q)

theorem chained_file (renders : Renders step) {path : Path} {rewrites : List Rewrite}
    {current : String} {content : Path → Option String} {rest : List Step}
    (chains : Analysis.Chains current rewrites) (holds : content path = some current)
    (others : ∀ content', (∀ q, q.same path = false → content' q = content q) →
      Chained content' rest) :
    Chained content ((rewrites.map (path, ·)).mapIdx step ++ rest) := by
  induction rewrites generalizing current content step with
  | nil => exact others content fun _ _ => rfl
  | cons r more ih =>
    rw [List.map_cons, List.mapIdx_cons, List.cons_append]
    obtain ⟨begins, goesOn⟩ := chains
    have own : (step 0 (path, r)).path = path := renders.path 0 _
    have stands : (step 0 (path, r)).StandsFor r := renders.standsFor 0 _
    refine ⟨?_, ih (renders.shift 1) goesOn ?_ fun content' agree => ?_⟩
    · rw [own, holds, stands.original, begins]
    · rw [Step.contentAfter, own, if_pos path.same_refl, stands.transformed]
    · refine others content' fun q other => (agree q other).trans ?_
      rw [Step.contentAfter, own, other, if_neg Bool.false_ne_true]

theorem chained_ofFiles (renders : Renders step) {m : Memory} {patterns : List Pattern}
    {paths : List Path} {rewrites : List (Path × Rewrite)}
    (once : paths.Pairwise fun p q => p.same q = false)
    (analysed : rewritesOf (Analysis.ofFiles m patterns paths) = .ok rewrites)
    {content : Path → Option String} (holds : ∀ path ∈ paths, content path = m.get? path) :
    Chained content (rewrites.mapIdx step) := by
  induction paths generalizing rewrites step content with
  | nil =>
    cases analysed
    trivial
  | cons path rest ih =>
    obtain ⟨more, others, rfl⟩ := rewritesOf_ofFiles_cons analysed
    obtain ⟨apart, once⟩ := List.pairwise_cons.mp once
    have own := holds path List.mem_cons_self
    rw [List.mapIdx_append]
    have next (content') (agree : ∀ q, q.same path = false → content' q = content q)
        (n : Nat) : Chained content' (more.mapIdx fun i => step (i + n)) := by
      refine ih (renders.shift n) once others fun q member => ?_
      have other : q.same path = false := (Path.same_comm q path).trans (apart q member)
      rw [agree q other, holds q (List.mem_cons_of_mem _ member)]
    cases held : m.get? path with
    | none => exact next content (fun _ _ => rfl) _
    | some text =>
      exact chained_file renders (Analysis.rewritesOf_chains patterns text) (own.trans held)
        fun content' agree => next content' agree _

variable {id : String} {now : Timestamp} {settings : Settings} {m : Memory}
  {patterns : List Pattern} {r : Request} {plan : Plan}

theorem steps_of_code (built : build id now settings m patterns r = .ok plan)
    (code : ∀ s ∈ plan.steps, s.kind = .codeTransformation) :
    ∃ listed rewrites, FileStore.list m r = .ok listed ∧
      rewritesOf (Analysis.ofFiles m patterns listed) = .ok rewrites ∧
      plan.steps = codeSteps settings.risk rewrites ∧ plan.request.includeTests = false := by
  obtain ⟨listed, rewrites, scanned, analysed, rfl⟩ := build_ok built
  have none : auxiliarySteps r settings.planning patterns listed
      (codeSteps settings.risk rewrites) = [] := by
    refine List.eq_nil_iff_forall_not_mem.mpr fun s member => ?_
    have kind := code s (List.mem_append_right _ member)
    obtain ⟨position, rfl | rfl | rfl⟩ := auxiliarySteps_cases member <;> cases kind
  refine ⟨listed, rewrites, scanned, analysed, ?_, includeTests_of_no_auxiliary none⟩
  rw [ofSteps, none, List.append_nil]

/-- If a plan has no other steps than code steps, then these form chains that begin with the
files as they were when it was built. -/
theorem chained_planned (ascending : m.files.Ascending)
    (built : build id now settings m patterns r = .ok plan)
    (code : ∀ s ∈ plan.steps, s.kind = .codeTransformation) : Chained m.get? plan.steps := by
  obtain ⟨listed, rewrites, scanned, analysed, steps, -⟩ := steps_of_code built code
  rw [steps]
  exact chained_ofFiles (renders_ofRewrite settings.risk)
    (Memory.pairwise_of_listed ascending scanned) analysed fun _ _ => rfl

theorem step_of_code (built : build id now settings m patterns r = .ok plan)
    (code : ∀ s ∈ plan.steps, s.kind = .codeTransformation) {s : Step} (member : s ∈ plan.steps) :
    s.path ∈ m.files.map (·.1) ∧ ∃ text, s.transformed = some text := by
  obtain ⟨listed, rewrites, scanned, analysed, steps, -⟩ := steps_of_code built code
  rw [steps] at member
  obtain ⟨i, bound, rfl⟩ := List.mem_mapIdx.mp member
  have among : rewrites[i].1 ∈ listed := mem_of_rewritten analysed (List.getElem_mem bound)
  exact ⟨Memory.stored_of_listed scanned among, _, rfl⟩

end Plan

end Uplift
