import Mathlib.Algebra.BigOperators.Group.List.Basic
import Mathlib.Algebra.Ring.Int.Defs
import Mathlib.Data.Finset.Card
import Uplift.Proofs.Plan.Backups
import Uplift.Proofs.Plan.Outcome

/-!
# What the assessment of a plan says about its files

A plan is assessed step by step, yet what is said of it holds of its files. Each file's steps
form a chain, so the gains of single steps add up to what the file gains from its scanned to its
final content (`line_impact_telescopes`), and a plan none of whose steps brings in more dangerous
calls leaves no file with more of them (`clean_label_sound`).
-/

namespace Uplift

/-! ### Chains of rewrites -/

def Rewrite.lineDelta (r : Rewrite) : Int := (Text.lineCount r.after : Int) - Text.lineCount r.before

namespace Analysis

theorem Chains.sum_lineDelta {current : String} {rewrites : List Rewrite}
    (chains : Chains current rewrites) :
    (rewrites.map (·.lineDelta)).sum =
      (Text.lineCount (lastText current rewrites) : Int) - Text.lineCount current := by
  induction rewrites generalizing current with
  | nil => exact (Int.sub_self _).symm
  | cons r rest ih =>
    rw [List.map_cons, List.sum_cons, ih chains.2, lastText_cons, Rewrite.lineDelta, chains.1]
    omega

/-- What no rewrite makes more of there is no more of in the end. -/
theorem Chains.last_le (count : String → Nat) {current : String} {rewrites : List Rewrite}
    (chains : Chains current rewrites)
    (noMore : ∀ r ∈ rewrites, count r.after ≤ count r.before) :
    count (lastText current rewrites) ≤ count current := by
  induction rewrites generalizing current with
  | nil => exact Nat.le_refl _
  | cons r rest ih =>
    have first := noMore r List.mem_cons_self
    rw [chains.1] at first
    rw [lastText_cons]
    exact (ih chains.2 fun r member => noMore r (List.mem_cons_of_mem _ member)).trans first

end Analysis

/-! ### Counting files -/

theorem length_distinctPaths (steps : List Step) :
    (distinctPaths steps).length = (steps.map (·.path.components)).toFinset.card := by
  obtain ⟨taken, found, once⟩ := distinctPaths_spec steps
  have nodup : ((distinctPaths steps).map (·.components)).Nodup := by
    refine List.pairwise_map.mpr (once.imp fun {p q} other same => ?_)
    rw [Path.same, same] at other
    simp at other
  have covered : (steps.map (·.path.components)).toFinset =
      ((distinctPaths steps).map (·.components)).toFinset := by
    ext components
    simp only [List.mem_toFinset, List.mem_map]
    constructor
    · rintro ⟨s, member, rfl⟩
      obtain ⟨path, kept, same⟩ := found s member
      exact ⟨path, kept, (of_decide_eq_true same).symm⟩
    · rintro ⟨path, kept, rfl⟩
      obtain ⟨s, member, rfl⟩ := taken path kept
      exact ⟨s, member, rfl⟩
  rw [covered, List.toFinset_card_of_nodup nodup, List.length_map]

namespace Plan

/-! ### Net lines -/

theorem lineDeltas_of_standsFor {steps : List Step} {rewrites : List Rewrite}
    (standFor : List.Forall₂ Step.StandsFor steps rewrites) :
    steps.filterMap (·.lineDelta?) = rewrites.map (·.lineDelta) := by
  induction standFor with
  | nil => rfl
  | @cons s r _ _ stands _ ih =>
    have own : s.lineDelta? = some r.lineDelta := by
      rw [Step.lineDelta?, stands.original, stands.transformed]
      rfl
    rw [List.filterMap_cons_some own, List.map_cons, ih]

variable {σ : Type} [FileStore σ] {id : String} {now : Timestamp} {s : Settings} {store : σ}
  {patterns : List Pattern} {r : Request} {plan : Plan}

/-- The steps beside the code steps gain no lines, and the code steps gain those of the rewrites,
file after file. -/
theorem netLines_of_built (built : build id now s store patterns r = .ok plan) :
    ∃ listed, FileStore.list store r = .ok listed ∧ netLines plan.steps =
      (listed.map fun path => ((fileRewrites store patterns path).map (·.lineDelta)).sum).sum := by
  obtain ⟨listed, rewrites, scanned, analysed, rfl⟩ := build_ok built
  refine ⟨listed, scanned, ?_⟩
  have beside : (auxiliarySteps r s.planning patterns listed
      (codeSteps s.risk rewrites)).filterMap (·.lineDelta?) = [] := by
    rw [List.filterMap_eq_nil_iff]
    intro step member
    obtain ⟨position, rfl | rfl | rfl⟩ := auxiliarySteps_cases member <;> rfl
  have code : (codeSteps s.risk rewrites).filterMap (·.lineDelta?) =
      (rewrites.map (·.2)).map (·.lineDelta) := by
    have standFor := (renders_ofRewrite s.risk).filtered rewrites fun _ => true
    simp only [List.filter_true] at standFor
    exact lineDeltas_of_standsFor standFor
  have sum : netLines (codeSteps s.risk rewrites ++ auxiliarySteps r s.planning patterns listed
      (codeSteps s.risk rewrites)) = ((rewrites.map (·.2)).map (·.lineDelta)).sum := by
    rw [netLines, List.filterMap_append, beside, List.append_nil, code]
    rfl
  rw [ofSteps, sum, rewrites_by_file analysed]
  clear built scanned analysed beside code sum
  induction listed with
  | nil => rfl
  | cons path rest ih =>
    rw [List.flatMap_cons, List.map_append, List.map_append, List.sum_append, ih, List.map_cons,
      List.sum_cons, List.map_map, List.map_map]
    rfl

/-- A file with the content that was scanned and the content that a plan is to leave. -/
structure FileOutcome where
  path : Path
  scanned : String
  planned : String

namespace FileOutcome

/-- The file was read in the store, and the last code step for it leaves the planned content. -/
structure Of (store : σ) (plan : Plan) (f : FileOutcome) : Prop where
  read : FileStore.read store f.path = .ok f.scanned
  final : plan.finalContent? f.path = some f.planned

def lineDelta (f : FileOutcome) : Int :=
  (Text.lineCount f.planned : Int) - Text.lineCount f.scanned

end FileOutcome

theorem lineDeltas_of_file (built : build id now s store patterns r = .ok plan)
    {listed : List Path} (scanned : FileStore.list store r = .ok listed) (path : Path)
    (member : path ∈ listed) :
    let gained := ((fileRewrites store patterns path).map (·.lineDelta)).sum
    (plan.codeStepsAt path = [] ∧ gained = 0) ∨
      (plan.codeStepsAt path ≠ [] ∧
        ∃ f : FileOutcome, f.path = path ∧ f.Of store plan ∧ gained = f.lineDelta) := by
  intro gained
  by_cases untouched : plan.codeStepsAt path = []
  · refine .inl ⟨untouched, ?_⟩
    obtain ⟨listed', scanned', standFor⟩ := codeStepsAt_built built
    obtain rfl : listed = listed' := Except.ok.inj (scanned.symm.trans scanned')
    have own := standFor path
    rw [untouched, List.forall₂_nil_left_iff, List.flatMap_eq_nil_iff] at own
    have none := own path (List.mem_filter.mpr ⟨member, decide_eq_true rfl⟩)
    simp only [gained, none, List.map_nil, List.sum_nil]
  · obtain ⟨content, read, final, -⟩ := planned_of_built built untouched
    refine .inr ⟨untouched, ⟨path, content, _⟩, rfl, ⟨read, final⟩, ?_⟩
    have own : fileRewrites store patterns path = Analysis.rewritesOf patterns content := by
      rw [fileRewrites, read]
    simp only [gained, own]
    exact (Analysis.rewritesOf_chains patterns content).sum_lineDelta

theorem netLines_by_file (built : build id now s store patterns r = .ok plan) :
    ∃ (listed : List Path) (files : List FileOutcome), FileStore.list store r = .ok listed ∧
      files.map (·.path) = listed.filter (fun path => plan.codeStepsAt path ≠ []) ∧
      (∀ f ∈ files, f.Of store plan) ∧ netLines plan.steps = (files.map (·.lineDelta)).sum := by
  obtain ⟨listed, scanned, net⟩ := netLines_of_built built
  have gains := lineDeltas_of_file built scanned
  rw [net]
  suffices chosen : ∃ files : List FileOutcome,
      files.map (·.path) = listed.filter (fun path => plan.codeStepsAt path ≠ []) ∧
      (∀ f ∈ files, f.Of store plan) ∧ _ = (files.map (·.lineDelta)).sum by
    obtain ⟨files, outcomes⟩ := chosen
    exact ⟨listed, files, scanned, outcomes⟩
  clear net scanned
  induction listed with
  | nil => exact ⟨[], rfl, by simp, rfl⟩
  | cons path rest ih =>
    obtain ⟨files, paths, outcomes, total⟩ :=
      ih fun path member => gains path (List.mem_cons_of_mem _ member)
    rcases gains path List.mem_cons_self with ⟨untouched, none⟩ | ⟨rewritten, f, rfl, own, gained⟩
    · refine ⟨files, ?_, outcomes, ?_⟩
      · rw [List.filter_cons_of_neg (by simpa using untouched), paths]
      · rw [List.map_cons, List.sum_cons, none, Int.zero_add, total]
    · refine ⟨f :: files, ?_, List.forall_mem_cons.mpr ⟨own, outcomes⟩, ?_⟩
      · rw [List.filter_cons_of_pos (by simpa using rewritten), List.map_cons, paths]
      · rw [List.map_cons, List.sum_cons, gained, List.map_cons, List.sum_cons, total]

/-- The net lines of a plan are those that its files gain from their scanned to their final
contents, whatever its steps gain and lose on the way; the files are the listed ones with code
steps, each as often as it is listed. The steps count as many files as they have different paths,
and so many are to be copied. -/
theorem line_impact_telescopes (built : build id now s store patterns r = .ok plan) :
    ∃ (listed : List Path) (files : List FileOutcome), FileStore.list store r = .ok listed ∧
      files.map (·.path) = listed.filter (fun path => plan.codeStepsAt path ≠ []) ∧
      (∀ f ∈ files, f.Of store plan) ∧ plan.impact.lines = (files.map (·.lineDelta)).sum ∧
      plan.impact.files = (plan.steps.map (·.path.components)).toFinset.card ∧
      plan.risk.backups.length = plan.impact.files := by
  obtain ⟨listed, files, scanned, paths, outcomes, total⟩ := netLines_by_file built
  obtain ⟨lines, counted⟩ : plan.impact.lines = netLines plan.steps ∧
      plan.impact.files = (distinctPaths plan.steps).length := by
    obtain ⟨_, _, -, -, rfl⟩ := build_ok built
    exact ⟨rfl, rfl⟩
  refine ⟨listed, files, scanned, paths, outcomes, lines.trans total, ?_, ?_⟩
  · rw [counted, length_distinctPaths]
  · rw [counted, backups_of_built built]

def shiftingFiles : Memory where
  files := .ofList [(⟨"a.js"⟩, "x\ny;"), (⟨"b.js"⟩, "y"), (⟨"c.js"⟩, "w")]

def shiftingPatterns : List Pattern := [.replacing "p" "x" "1\n2\n3", .replacing "q" "\ny" "y"]

def shiftingPlan : Except EngineError Plan :=
  build "m" ⟨0, 0⟩ {} shiftingFiles shiftingPatterns { source := "1", target := "2" }

theorem shiftingPlan_lines :
    ∃ (plan : Plan) (listed : List Path) (files : List FileOutcome), shiftingPlan = .ok plan ∧
      FileStore.list shiftingFiles { source := "1", target := "2" } = .ok listed ∧
      files.map (·.path) = listed.filter (fun path => plan.codeStepsAt path ≠ []) ∧
      (∀ f ∈ files, FileOutcome.Of shiftingFiles plan f) ∧
      plan.impact.lines = (files.map (·.lineDelta)).sum ∧ plan.impact.lines = 1 ∧
      plan.steps.filterMap (·.lineDelta?) = [2, -1] ∧
      plan.impact.files = (plan.steps.map (·.path.components)).toFinset.card ∧
      plan.risk.backups.length = plan.impact.files := by
  obtain ⟨plan, built⟩ : ∃ plan, shiftingPlan = .ok plan := ⟨_, rfl⟩
  obtain ⟨listed, files, scanned, paths, outcomes, total, counted, copied⟩ :=
    line_impact_telescopes built
  have numbers : ∀ plan ∈ shiftingPlan.toOption,
      plan.impact.lines = 1 ∧ plan.steps.filterMap (·.lineDelta?) = [2, -1] := by
    decide +kernel
  obtain ⟨lines, deltas⟩ := numbers plan (by rw [built]; rfl)
  exact ⟨plan, listed, files, built, scanned, paths, outcomes, total, lines, deltas, counted, copied⟩

/-! ### Dangerous calls -/

theorem introduced_of_clean {codeSteps : List Step}
    (clean : SecurityStatus.ofSteps codeSteps = .clean) {step : Step} (member : step ∈ codeSteps)
    {before after : String} (original : step.original = some before)
    (transformed : step.transformed = some after) : Danger.introduced before after = [] := by
  unfold SecurityStatus.ofSteps at clean
  dsimp only at clean
  split at clean
  · cases clean
  · rename_i safe
    rw [List.any_eq_true] at safe
    by_contra introduced
    refine safe ⟨step, member, ?_⟩
    rw [original, transformed]
    simpa using introduced

/-- If a plan is labelled clean, then no file with code steps ends with more occurrences of a
dangerous fragment than it was scanned with, through however many rewrites by whichever patterns
it goes. -/
theorem clean_label_sound (built : build id now s store patterns r = .ok plan)
    (clean : plan.validation.security = .clean) {path : Path}
    (rewritten : plan.codeStepsAt path ≠ []) :
    ∃ f : FileOutcome, f.path = path ∧ f.Of store plan ∧ ∀ fragment ∈ Danger.fragments,
      Text.countOf fragment.toList f.planned.toList ≤
        Text.countOf fragment.toList f.scanned.toList := by
  obtain ⟨scanned, read, final, steps⟩ := planned_of_built built rewritten
  refine ⟨⟨path, scanned, _⟩, rfl, ⟨read, final⟩, fun fragment dangerous => ?_⟩
  have label : SecurityStatus.ofSteps (plan.steps.filter fun s => s.kind = .codeTransformation) =
      .clean := by
    obtain ⟨_, _, -, -, rfl⟩ := build_ok built
    exact clean
  refine (Analysis.rewritesOf_chains patterns scanned).last_le
    (fun text => Text.countOf fragment.toList text.toList) fun rewrite made => ?_
  obtain ⟨step, own, stands⟩ := steps rewrite made
  obtain ⟨member, isCode⟩ := List.mem_filter.mp own
  have code : step ∈ plan.steps.filter fun s => s.kind = .codeTransformation :=
    List.mem_filter.mpr ⟨member, by simpa using (of_decide_eq_true isCode).1⟩
  have none := introduced_of_clean label code stands.original stands.transformed
  rw [Danger.introduced, List.filter_eq_nil_iff] at none
  simpa using none fragment dangerous

/-- Two calls of which the second pattern takes one away again, once the first has respelled
what stands before it. -/
def callingFiles : Memory where
  files := .ofList [(⟨"a.js"⟩, "x eval(eval(1))"), (⟨"b.js"⟩, "y")]

def callingPatterns : List Pattern := [.replacing "p" "x" "y", .replacing "q" "y eval(" "run("]

def callingPlan : Except EngineError Plan :=
  build "m" ⟨0, 0⟩ {} callingFiles callingPatterns { source := "1", target := "2" }

theorem callingPlan_clean :
    ∃ plan, callingPlan = .ok plan ∧ plan.validation.security = .clean ∧
      plan.codeStepsAt ⟨"a.js"⟩ ≠ [] ∧
      ∃ f : FileOutcome, f.path = ⟨"a.js"⟩ ∧ f.Of callingFiles plan ∧ f.planned = "run(eval(1))" ∧
        ∀ fragment ∈ Danger.fragments, Text.countOf fragment.toList f.planned.toList ≤
          Text.countOf fragment.toList f.scanned.toList := by
  obtain ⟨plan, built⟩ : ∃ plan, callingPlan = .ok plan := ⟨_, rfl⟩
  have facts : ∀ plan ∈ callingPlan.toOption, plan.validation.security = .clean ∧
      plan.codeStepsAt ⟨"a.js"⟩ ≠ [] ∧ plan.finalContent? ⟨"a.js"⟩ = some "run(eval(1))" := by
    decide +kernel
  obtain ⟨clean, rewritten, left⟩ := facts plan (by rw [built]; rfl)
  obtain ⟨f, path, own, noMore⟩ := clean_label_sound built clean rewritten
  have planned : f.planned = "run(eval(1))" := by
    rw [← path, own.final] at left
    exact Option.some.inj left
  exact ⟨plan, built, clean, rewritten, f, path, own, planned, noMore⟩

end Plan

end Uplift
