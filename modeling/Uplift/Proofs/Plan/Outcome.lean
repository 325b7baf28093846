import Uplift.Proofs.Plan.Chain

/-!
# What a plan makes of each file

Over any store the rewrites of a plan are those of the listed files, file after file
(`rewrites_by_file`). The code steps for a file therefore lead from the content that was read to
the text that the patterns make of it in the end (`planned_of_built`).
-/

namespace Uplift

theorem exists_related {α β : Type} {R : α → β → Prop} {as : List α} {bs : List β}
    (related : List.Forall₂ R as bs) {b : β} (member : b ∈ bs) : ∃ a ∈ as, R a b := by
  induction related with
  | nil => cases member
  | @cons a _ _ _ own _ ih =>
    rcases List.mem_cons.mp member with rfl | among
    · exact ⟨a, List.mem_cons_self, own⟩
    · obtain ⟨a', there, related⟩ := ih among
      exact ⟨a', List.mem_cons_of_mem _ there, related⟩

namespace Plan

def codeStepsAt (p : Plan) (path : Path) : List Step :=
  p.steps.filter fun s => s.kind = .codeTransformation ∧ s.path = path

def finalContent? (p : Plan) (path : Path) : Option String :=
  (p.codeStepsAt path).getLast?.bind (·.transformed)

variable {σ : Type} [FileStore σ]

/-- The rewrites of a file; one that cannot be read has none. -/
def fileRewrites (store : σ) (patterns : List Pattern) (path : Path) : List Rewrite :=
  match FileStore.read store path with
  | .ok content => Analysis.rewritesOf patterns content
  | .error _ => []

variable {store : σ} {patterns : List Pattern} {listed : List Path}
  {rewrites : List (Path × Rewrite)}

theorem rewrites_by_file
    (analysed : rewritesOf (Analysis.ofFiles store patterns listed) = .ok rewrites) :
    rewrites = listed.flatMap fun path => (fileRewrites store patterns path).map (path, ·) := by
  induction listed generalizing rewrites with
  | nil =>
    cases analysed
    rfl
  | cons path rest ih =>
    have unfolded : rewritesOf (Analysis.ofFiles store patterns (path :: rest)) =
        rewritesOf ((path, (FileStore.read store path).map (Analysis.ofContent path · patterns)) ::
          Analysis.ofFiles store patterns rest) := rfl
    rw [unfolded] at analysed
    rw [List.flatMap_cons, fileRewrites]
    cases read : FileStore.read store path with
    | error e =>
      simp only [read, Except.map, rewritesOf] at analysed
      split at analysed
      · exact ih analysed
      · cases analysed
    | ok content =>
      rcases others : rewritesOf (Analysis.ofFiles store patterns rest) with e | more
      · simp [read, rewritesOf, Except.map, others] at analysed
      · simp only [read, rewritesOf, Except.map, others] at analysed
        cases analysed
        rw [ih others]
        rfl

theorem rewrites_of_file
    (analysed : rewritesOf (Analysis.ofFiles store patterns listed) = .ok rewrites) (path : Path) :
    (rewrites.filter (·.1 = path)).map (·.2) =
      (listed.filter (· = path)).flatMap fun _ => fileRewrites store patterns path := by
  rw [rewrites_by_file analysed]
  clear analysed
  induction listed with
  | nil => rfl
  | cons q rest ih =>
    rw [List.flatMap_cons, List.filter_append, List.map_append, ih, List.filter_cons,
      List.filter_map]
    by_cases same : q = path
    · subst same
      simp [Function.comp_def]
    · simp [Function.comp_def, same]

variable {id : String} {now : Timestamp} {s : Settings} {r : Request} {plan : Plan}

theorem codeStepsAt_built (built : build id now s store patterns r = .ok plan) :
    ∃ listed, FileStore.list store r = .ok listed ∧ ∀ path,
      List.Forall₂ Step.StandsFor (plan.codeStepsAt path)
        ((listed.filter (· = path)).flatMap fun _ => fileRewrites store patterns path) := by
  obtain ⟨listed, rewrites, scanned, analysed, rfl⟩ := build_ok built
  refine ⟨listed, scanned, fun path => ?_⟩
  have own := (renders_ofRewrite s.risk).filtered rewrites (· = path)
  rw [rewrites_of_file analysed path] at own
  have others : (auxiliarySteps r s.planning patterns listed (codeSteps s.risk rewrites)).filter
      (fun s => s.kind = .codeTransformation ∧ s.path = path) = [] := by
    rw [List.filter_eq_nil_iff]
    intro step member
    obtain ⟨position, rfl | rfl | rfl⟩ := auxiliarySteps_cases member <;> nofun
  have code : (codeSteps s.risk rewrites).filter
      (fun s => s.kind = .codeTransformation ∧ s.path = path) =
      (codeSteps s.risk rewrites).filter (·.path = path) :=
    List.filter_congr fun step member => by simp [kind_of_codeStep member]
  rw [codeStepsAt, ofSteps, List.filter_append, others, List.append_nil, code]
  exact own

/-- A file with code steps was read, each of its rewrites has a step, and the last step leaves
what comes of all of them. -/
theorem planned_of_built (built : build id now s store patterns r = .ok plan) {path : Path}
    (rewritten : plan.codeStepsAt path ≠ []) :
    ∃ scanned, FileStore.read store path = .ok scanned ∧
      plan.finalContent? path =
        some (Analysis.lastText scanned (Analysis.rewritesOf patterns scanned)) ∧
      ∀ rewrite ∈ Analysis.rewritesOf patterns scanned,
        ∃ step ∈ plan.codeStepsAt path, step.StandsFor rewrite := by
  obtain ⟨listed, -, standFor⟩ := codeStepsAt_built built
  have own := standFor path
  generalize listed.filter (· = path) = times at own
  have once : times ≠ [] := by
    rintro rfl
    exact rewritten (List.forall₂_nil_right_iff.mp own)
  unfold fileRewrites at own
  cases read : FileStore.read store path with
  | error e =>
    rw [read] at own
    have none : times.flatMap (fun _ => ([] : List Rewrite)) = [] := by simp
    rw [none] at own
    exact absurd (List.forall₂_nil_right_iff.mp own) rewritten
  | ok scanned =>
    rw [read] at own
    refine ⟨scanned, rfl, ?_, fun rewrite made => ?_⟩
    · have left : (plan.codeStepsAt path).map (·.transformed) =
          (times.flatMap fun _ => Analysis.rewritesOf patterns scanned).map (some ·.after) := by
        rw [← List.forall₂_eq_eq_eq, List.forall₂_map_left_iff, List.forall₂_map_right_iff]
        exact own.imp fun _ _ stands => stands.transformed
      have last := Analysis.getLastD_after scanned
        (times.flatMap fun _ => Analysis.rewritesOf patterns scanned)
      rw [← left, Analysis.lastText_repeated _ _ once, List.getLastD_eq_getLast?,
        List.getLast?_map, List.getLast?_eq_some_getLast rewritten] at last
      rw [finalContent?, List.getLast?_eq_some_getLast rewritten]
      exact last
    · obtain ⟨time, among⟩ := List.exists_mem_of_ne_nil _ once
      exact exists_related own (List.mem_flatMap.mpr ⟨time, among, made⟩)

end Plan

end Uplift
