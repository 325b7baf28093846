import Mathlib.Data.List.Chain
import Uplift.Proofs.Analysis.Turns
import Uplift.Proofs.Plan.Chain
import Uplift.Proofs.Plan.Validity

/-!
# The shape of a plan

A plan begins with its code steps, file after file in the order of the paths. Those of one file
stand for the matches of the patterns in turn, and lead from the content of the file through all
that is made of it on the way (`built_in_shape`).
-/

namespace Uplift

open Analysis (Chains Replaced Turn textInTurn turns)

/-! ### The steps of one file -/

namespace Step

def InTurn (patterns : List Pattern) (content : String) (s : Step) (t : Turn) : Prop :=
  ∃ p before after, patterns[t.index]? = some p ∧ s.pattern = some p.id ∧
    s.original = some before ∧ s.transformed = some after ∧
    Replaced (textInTurn patterns content t.index) t.found (p.transform.apply t.found) before after

theorem inTurn_of_standsFor {patterns : List Pattern} {content : String} {own : List Step}
    {rewrites : List Rewrite} {ts : List Turn} (rendered : List.Forall₂ StandsFor own rewrites)
    (inTurn : List.Forall₂ (Analysis.InTurn Pattern.find patterns content) rewrites ts) :
    List.Forall₂ (InTurn patterns content) own ts := by
  induction rendered generalizing ts with
  | nil =>
    cases inTurn
    exact .nil
  | cons stands others ih =>
    obtain _ | ⟨made, more⟩ := inTurn
    exact .cons ⟨_, _, _, made.1, stands.pattern, stands.original, stands.transformed, made.2⟩
      (ih more)

theorem linked_of_standsFor {current : String} {own : List Step} {rewrites : List Rewrite}
    (rendered : List.Forall₂ StandsFor own rewrites) (chains : Chains current rewrites) :
    (∀ s ∈ own.head?, s.original = some current) ∧
      own.IsChain fun s t => t.original = s.transformed := by
  induction rendered generalizing current with
  | nil => exact ⟨by simp, .nil⟩
  | cons stands others ih =>
    obtain ⟨begins, goesOn⟩ := chains
    obtain ⟨next, linked⟩ := ih goesOn
    refine ⟨fun s first => ?_, List.isChain_cons.mpr ⟨fun t second => ?_, linked⟩⟩
    · cases first
      rw [stands.original, begins]
    · rw [next t second, stands.transformed]

end Step

namespace Plan

/-- The steps of one file: they lead from its content on, one for each match of the patterns in
turn, and there is none if no pattern matches. -/
structure GoesThrough (patterns : List Pattern) (content : String) (own : List Step) : Prop where
  begins : ∀ s ∈ own.head?, s.original = some content
  linked : own.IsChain fun s t => t.original = s.transformed
  inTurn : List.Forall₂ (Step.InTurn patterns content) own (turns patterns content)
  ordered : (turns patterns content).Pairwise Turn.Before
  none_iff : own = [] ↔ ∀ (i : Nat) (p : Pattern), patterns[i]? = some p →
    p.matcher.find (textInTurn patterns content i) = []

theorem goesThrough_of_standsFor {patterns : List Pattern} {content : String} {own : List Step}
    (rendered : List.Forall₂ Step.StandsFor own (Analysis.rewritesOf patterns content)) :
    GoesThrough patterns content own := by
  obtain ⟨begins, linked⟩ :=
    Step.linked_of_standsFor rendered (Analysis.rewritesOf_chains patterns content)
  have spread (p : Pattern) := p.matcher.find_spread
  have inTurn := Step.inTurn_of_standsFor rendered
    (Analysis.rewritesBy_turns spread patterns content)
  refine ⟨begins, linked, inTurn, Analysis.turns_ordered spread patterns content, ?_⟩
  rw [← Analysis.turns_eq_nil_iff, ← List.length_eq_zero_iff, inTurn.length_eq,
    List.length_eq_zero_iff]

/-! ### The code steps -/

variable {rewrites : List (Path × Rewrite)} {m : Memory} {patterns : List Pattern}

theorem Renders.paths {step : Nat → Path × Rewrite → Step} (renders : Renders step)
    (rewrites : List (Path × Rewrite)) :
    (rewrites.mapIdx step).map (·.path) = rewrites.map (·.1) := by
  refine List.ext_getElem? fun i => ?_
  have same : (·.path) ∘ step i = (·.1) := funext (renders.path i)
  rw [List.getElem?_map, List.getElem?_mapIdx, List.getElem?_map, Option.map_map, same]

theorem rewrites_grouped {paths : List Path}
    (ascending : paths.Pairwise fun p q => p.lt q = true)
    (analysed : rewritesOf (Analysis.ofFiles m patterns paths) = .ok rewrites) :
    (rewrites.map (·.1)).Pairwise fun p q => p = q ∨ p.lt q = true := by
  induction paths generalizing rewrites with
  | nil =>
    cases analysed
    exact .nil
  | cons path rest ih =>
    obtain ⟨more, others, rfl⟩ := rewritesOf_ofFiles_cons analysed
    obtain ⟨above, ascending⟩ := List.pairwise_cons.mp ascending
    rw [List.map_append, List.map_map]
    refine List.pairwise_append.mpr ⟨?_, ih ascending others, fun p own q later => ?_⟩
    · exact List.pairwise_map.mpr (List.pairwise_of_forall fun _ _ => .inl rfl)
    · obtain ⟨_, -, rfl⟩ := List.mem_map.mp own
      obtain ⟨entry, member, rfl⟩ := List.mem_map.mp later
      exact .inr (above _ (mem_of_rewritten others member))

theorem rewritesAt_listed {listed : List Path}
    (once : listed.Pairwise fun p q => p.same q = false)
    (analysed : rewritesOf (Analysis.ofFiles m patterns listed) = .ok rewrites) {path : Path}
    (member : path ∈ listed) {content : String} (held : m.get? path = some content) :
    rewritesAt path rewrites = Analysis.rewritesOf patterns content := by
  have alone : listed.filter (·.same path) = [path] := by
    obtain ⟨front, back, rfl⟩ := List.append_of_mem member
    obtain ⟨-, behind, inFront⟩ := List.pairwise_append.mp once
    have noneFront : front.filter (·.same path) = [] := by
      simpa using fun q among => inFront q among path List.mem_cons_self
    have noneBehind : back.filter (·.same path) = [] := by
      simpa [Path.same_comm _ path] using (List.pairwise_cons.mp behind).1
    rw [List.filter_append, noneFront, List.filter_cons, if_pos path.same_refl, noneBehind,
      List.nil_append]
  rw [rewritesAt_ofFiles path analysed, alone, held, List.flatMap_singleton]
  rfl

/-- The code steps stand before all others and are grouped by file, in ascending order of the
paths; those of each listed file lead through the turns of the patterns at its content. -/
structure Shape (m : Memory) (patterns : List Pattern) (listed : List Path)
    (steps code auxiliary : List Step) : Prop where
  parts : steps = code ++ auxiliary
  kinds : ∀ s ∈ code, s.kind = .codeTransformation ∧ s.path ∈ listed
  others : ∀ s ∈ auxiliary, s.kind ≠ .codeTransformation
  grouped : code.Pairwise fun s t => s.path = t.path ∨ s.path.lt t.path = true
  files : ∀ path ∈ listed, ∃ content, m.get? path = some content ∧
    GoesThrough patterns content (code.filter (·.path.same path))

/-- Over a memory store every valid request has a plan, and it is in shape. -/
theorem built_in_shape (ascending : m.files.Ascending) {r : Request} (valid : r.validate = .ok ())
    (id : String) (now : Timestamp) (settings : Settings) (patterns : List Pattern) :
    ∃ plan listed code auxiliary, build id now settings m patterns r = .ok plan ∧
      FileStore.list m r = .ok listed ∧ Shape m patterns listed plan.steps code auxiliary := by
  obtain ⟨plan, built⟩ : ∃ plan, build id now settings m patterns r = .ok plan :=
    build_of_valid valid
  obtain ⟨listed, rewrites, scanned, analysed, rfl⟩ := build_ok built
  have renders := renders_ofRewrite settings.risk
  have paths : (codeSteps settings.risk rewrites).map (·.path) = rewrites.map (·.1) :=
    renders.paths rewrites
  refine ⟨_, listed, _, _, built, scanned, rfl, fun s member => ⟨kind_of_codeStep member, ?_⟩,
    fun s member => ?_, ?_, fun path member => ?_⟩
  · have among := List.mem_map_of_mem (f := (·.path)) member
    rw [paths] at among
    obtain ⟨entry, there, same⟩ := List.mem_map.mp among
    exact same ▸ mem_of_rewritten analysed there
  · obtain ⟨position, rfl | rfl | rfl⟩ := auxiliarySteps_cases member <;> nofun
  · have grouped := rewrites_grouped (Memory.ascending_of_listed ascending scanned) analysed
    rw [← paths] at grouped
    exact List.pairwise_map.mp grouped
  · obtain ⟨content, held⟩ := Memory.get?_of_listed scanned member
    have own := renders.at_path rewrites path
    rw [rewritesAt_listed (Memory.pairwise_of_listed ascending scanned) analysed member held] at own
    exact ⟨content, held, goesThrough_of_standsFor own⟩

/-- Three files, of which one is left alone. The component `a` comes before the component `a-b`. -/
def threeFiles : Memory where
  files := .ofList [(⟨"a-b"⟩, "xx"), (⟨"a/b"⟩, "y"), (⟨"c"⟩, "w")]

def twoPatterns : List Pattern := [.replacing "p" "x" "yx", .replacing "q" "y" "z"]

def upgrade : Request := { source := "1", target := "2" }

def upgradePlan : Except EngineError Plan := build "m" ⟨0, 0⟩ {} threeFiles twoPatterns upgrade

theorem upgradePlan_in_shape :
    ∃ plan listed code auxiliary, upgradePlan = .ok plan ∧
      FileStore.list threeFiles upgrade = .ok listed ∧
      Shape threeFiles twoPatterns listed plan.steps code auxiliary ∧
      plan.steps.map (fun s => (s.path.text, s.pattern, s.original, s.transformed)) = [
        ("a/b", some "q", some "y", some "z"),
        ("a-b", some "p", some "xx", some "yxx"),
        ("a-b", some "p", some "yxx", some "yxyx"),
        ("a-b", some "q", some "yxyx", some "zxyx"),
        ("a-b", some "q", some "zxyx", some "zxzx"),
        ("package.json", none, none, none),
        ("tsconfig.json", none, none, none)] := by
  have ascending : threeFiles.files.Ascending := Files.ascending_ofList _
  have valid : upgrade.validate = .ok () := by rfl
  obtain ⟨plan, listed, code, auxiliary, built, scanned, shape⟩ :=
    built_in_shape ascending valid "m" ⟨0, 0⟩ {} twoPatterns
  refine ⟨plan, listed, code, auxiliary, built, scanned, shape, ?_⟩
  have made : plan ∈ upgradePlan.toOption := by
    rw [upgradePlan, built]
    rfl
  clear built shape
  revert plan
  decide +kernel

end Plan

end Uplift
