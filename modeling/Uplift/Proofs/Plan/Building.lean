import Uplift.Plan.Builder
import Uplift.Proofs.Analysis.OnePass
import Uplift.Proofs.Files.Contents

/-!
# What is in a plan

`Plan.build_ok` takes a plan apart into the rewrites of the listed files and the steps beside
them. The rewrites at a path are those of its content, once for every time that it is listed
(`rewritesAt_ofFiles`), and so they end in the text that the patterns make of it.
-/

namespace Uplift

def Pattern.replacing (id needle text : String) : Pattern where
  id := id
  name := id
  category := .generalLanguage
  matcher := .literal needle
  transform := .replace text

namespace Analysis

theorem ofFile_ok {σ : Type} [FileStore σ] {store : σ} {patterns : List Pattern} {path : Path}
    {a : Analysis} (done : ofFile store patterns path = .ok a) :
    ∃ content, a = ofContent path content patterns := by
  unfold ofFile at done
  cases read : FileStore.read store path with
  | error e => simp [read, Except.map] at done
  | ok content =>
    simp only [read, Except.map] at done
    exact ⟨content, (Except.ok.inj done).symm⟩

theorem mem_of_matchesInTurn {ps : List Pattern} {text : String} {p : Pattern} {m : Match}
    (member : (p, m) ∈ matchesInTurn ps text) : p ∈ ps := by
  induction ps generalizing text with
  | nil => cases member
  | cons q qs ih =>
    rcases List.mem_append.mp member with own | later
    · obtain ⟨_, -, same⟩ := List.mem_map.mp own
      exact (Prod.mk.inj same).1 ▸ List.mem_cons_self
    · exact List.mem_cons_of_mem _ (ih later)

theorem pattern_mem_of_rewrite {ps : List Pattern} {content : String} {r : Rewrite}
    (member : r ∈ rewritesOf ps content) : r.pattern ∈ ps := by
  have entry := List.mem_map_of_mem (f := Rewrite.entry) member
  rw [(rewritesOf_in_turn ps content).2] at entry
  obtain ⟨⟨p, m⟩, found, same⟩ := List.mem_map.mp entry
  have own : p = r.pattern := (Prod.mk.inj same).1
  exact own ▸ mem_of_matchesInTurn found

end Analysis

namespace Plan

/-! ### The parts of a plan -/

theorem build_ok {σ : Type} [FileStore σ] {id : String} {now : Timestamp} {s : Settings}
    {store : σ} {patterns : List Pattern} {r : Request} {plan : Plan}
    (built : Plan.build id now s store patterns r = .ok plan) :
    ∃ listed rewrites, FileStore.list store r = .ok listed ∧
      rewritesOf (Analysis.ofFiles store patterns listed) = .ok rewrites ∧
      plan = ofSteps id now s r patterns listed (codeSteps s.risk rewrites ++
        auxiliarySteps r s.planning patterns listed (codeSteps s.risk rewrites)) := by
  unfold Plan.build at built
  split at built
  · cases built
  · split at built
    · cases built
    · rename_i listed scanned
      split at built
      · cases built
      · rename_i rewrites analysed
        exact ⟨listed, rewrites, scanned, analysed, (Except.ok.inj built).symm⟩

theorem build_request {σ : Type} [FileStore σ] {id : String} {now : Timestamp} {s : Settings}
    {store : σ} {patterns : List Pattern} {r : Request} {plan : Plan}
    (built : Plan.build id now s store patterns r = .ok plan) : plan.request = r := by
  obtain ⟨listed, rewrites, -, -, rfl⟩ := build_ok built
  rfl

theorem kind_of_codeStep {policy : RiskPolicy} {rewrites : List (Path × Rewrite)} {s : Step}
    (member : s ∈ codeSteps policy rewrites) : s.kind = .codeTransformation := by
  unfold codeSteps at member
  obtain ⟨i, bound, rfl⟩ := List.mem_mapIdx.mp member
  rfl

/-- Beside the code steps a plan has a manifest step, a configuration step and a test step, each
if the request asks for it, and each made for the position at which it stands. -/
theorem auxiliarySteps_at {r : Request} {policy : PlanningPolicy} {patterns : List Pattern}
    {listed : List Path} {code : List Step} {i : Nat} {s : Step}
    (there : (auxiliarySteps r policy patterns listed code)[i]? = some s) :
    s = manifestStep r policy.dependencyUpdate (neededPackages code patterns) (code.length + i) ∨
      s = configStep r policy.configChange (code.length + i) ∨
      s = testStep r policy.testUpdate listed (code.length + i) := by
  unfold auxiliarySteps at there
  rw [List.getElem?_mapIdx] at there
  obtain ⟨step, chosen, rfl⟩ := Option.map_eq_some_iff.mp there
  rcases List.mem_append.mp (List.mem_of_getElem? chosen) with other | tests
  · rcases List.mem_append.mp other with manifests | configs
    · split at manifests
      · obtain rfl := List.mem_singleton.mp manifests
        exact .inl rfl
      · cases manifests
    · split at configs
      · obtain rfl := List.mem_singleton.mp configs
        exact .inr (.inl rfl)
      · cases configs
  · split at tests
    · obtain rfl := List.mem_singleton.mp tests
      exact .inr (.inr rfl)
    · cases tests

theorem auxiliarySteps_cases {r : Request} {policy : PlanningPolicy} {patterns : List Pattern}
    {listed : List Path} {code : List Step} {s : Step}
    (member : s ∈ auxiliarySteps r policy patterns listed code) :
    ∃ position,
      s = manifestStep r policy.dependencyUpdate (neededPackages code patterns) position ∨
        s = configStep r policy.configChange position ∨
        s = testStep r policy.testUpdate listed position := by
  obtain ⟨i, there⟩ := List.getElem?_of_mem member
  exact ⟨code.length + i, auxiliarySteps_at there⟩

theorem includeTests_of_no_auxiliary {r : Request} {policy : PlanningPolicy}
    {patterns : List Pattern} {listed : List Path} {code : List Step}
    (none : auxiliarySteps r policy patterns listed code = []) : r.includeTests = false := by
  unfold auxiliarySteps at none
  rw [List.mapIdx_eq_nil_iff, List.append_eq_nil_iff] at none
  rw [Bool.eq_false_iff]
  intro tests
  rw [if_pos tests] at none
  cases none.2

/-! ### Where rewrites come from -/

theorem mem_rewritesOf {results : List (Path × Except FileError Analysis)}
    {rewrites : List (Path × Rewrite)} (analysed : rewritesOf results = .ok rewrites)
    {entry : Path × Rewrite} (member : entry ∈ rewrites) :
    ∃ path a, (path, .ok a) ∈ results ∧ entry.1 = a.path ∧ entry.2 ∈ a.rewrites := by
  fun_induction rewritesOf results generalizing rewrites with
  | case1 =>
    cases analysed
    cases member
  | case2 path a rest ih =>
    rcases others : rewritesOf rest with e | more
    · simp [others, Except.map] at analysed
    · simp only [others, Except.map] at analysed
      cases analysed
      rcases List.mem_append.mp member with own | among
      · obtain ⟨rewrite, made, rfl⟩ := List.mem_map.mp own
        exact ⟨path, a, List.mem_cons_self, rfl, made⟩
      · obtain ⟨path', a', there, made⟩ := ih others among
        exact ⟨path', a', List.mem_cons_of_mem _ there, made⟩
  | case3 path e rest recoverable ih =>
    obtain ⟨path', a', there, made⟩ := ih analysed member
    exact ⟨path', a', List.mem_cons_of_mem _ there, made⟩
  | case4 => cases analysed

theorem codeStep_of_built {σ : Type} [FileStore σ] {id : String} {now : Timestamp}
    {s : Settings} {store : σ} {patterns : List Pattern} {r : Request} {plan : Plan}
    (built : Plan.build id now s store patterns r = .ok plan) {step : Step}
    (member : step ∈ plan.steps) (code : step.kind = .codeTransformation) :
    ∃ path position rewrite, rewrite.pattern ∈ patterns ∧
      step = Step.ofRewrite s.risk path position rewrite := by
  obtain ⟨listed, rewrites, -, analysed, rfl⟩ := build_ok built
  rcases List.mem_append.mp member with planned | beside
  · obtain ⟨position, bound, rfl⟩ := List.mem_mapIdx.mp planned
    obtain ⟨path, a, there, -, made⟩ := mem_rewritesOf analysed (List.getElem_mem bound)
    obtain ⟨file, -, same⟩ := List.mem_map.mp there
    obtain ⟨rfl, done⟩ := Prod.mk.inj same
    obtain ⟨content, rfl⟩ := Analysis.ofFile_ok done
    exact ⟨_, position, _, Analysis.pattern_mem_of_rewrite made, rfl⟩
  · obtain ⟨position, rfl | rfl | rfl⟩ := auxiliarySteps_cases beside <;> cases code

/-! ### Rewrites at a path -/

def rewritesAt (q : Path) (rewrites : List (Path × Rewrite)) : List Rewrite :=
  (rewrites.filter (·.1.same q)).map (·.2)

theorem rewritesAt_append (q : Path) (first second : List (Path × Rewrite)) :
    rewritesAt q (first ++ second) = rewritesAt q first ++ rewritesAt q second := by
  unfold rewritesAt
  rw [List.filter_append, List.map_append]

theorem rewritesAt_file (q path : Path) (rewrites : List Rewrite) :
    rewritesAt q (rewrites.map (path, ·)) = if path.same q then rewrites else [] := by
  unfold rewritesAt
  rw [List.filter_map]
  cases same : path.same q <;> simp [Function.comp_def, same]

/-- The rewrites of some files are those of the first one, under its path, and then the others';
a file that cannot be read has none and is passed over. -/
theorem rewritesOf_ofFiles_cons {m : Memory} {patterns : List Pattern} {path : Path}
    {paths : List Path} {rewrites : List (Path × Rewrite)}
    (analysed : rewritesOf (Analysis.ofFiles m patterns (path :: paths)) = .ok rewrites) :
    ∃ more, rewritesOf (Analysis.ofFiles m patterns paths) = .ok more ∧
      rewrites = (((m.get? path).map (Analysis.rewritesOf patterns)).getD []).map (path, ·) ++
        more := by
  have unfolded : rewritesOf (Analysis.ofFiles m patterns (path :: paths)) =
      rewritesOf ((path, (m.read path).map (Analysis.ofContent path · patterns)) ::
        Analysis.ofFiles m patterns paths) := rfl
  rw [unfolded, Memory.read] at analysed
  cases held : m.get? path with
  | none =>
    rw [held] at analysed
    exact ⟨rewrites, analysed, rfl⟩
  | some content =>
    rw [held] at analysed
    rcases others : rewritesOf (Analysis.ofFiles m patterns paths) with e | more
    · simp [rewritesOf, Except.map, others] at analysed
    · simp only [rewritesOf, Except.map, others] at analysed
      cases analysed
      exact ⟨more, rfl, rfl⟩

/-- The rewrites at a path are those of its content, as often as the path is listed. -/
theorem rewritesAt_ofFiles {m : Memory} {patterns : List Pattern} {paths : List Path}
    {rewrites : List (Path × Rewrite)} (q : Path)
    (analysed : rewritesOf (Analysis.ofFiles m patterns paths) = .ok rewrites) :
    rewritesAt q rewrites = (paths.filter (·.same q)).flatMap fun _ =>
      ((m.get? q).map (Analysis.rewritesOf patterns)).getD [] := by
  induction paths generalizing rewrites with
  | nil =>
    cases analysed
    rfl
  | cons path rest ih =>
    obtain ⟨more, others, rfl⟩ := rewritesOf_ofFiles_cons analysed
    rw [rewritesAt_append, rewritesAt_file, ih others, List.filter_cons]
    cases same : path.same q with
    | false => rfl
    | true => simp [Memory.get?_congr m same]

theorem mem_of_rewritten {m : Memory} {patterns : List Pattern} {paths : List Path}
    {rewrites : List (Path × Rewrite)}
    (analysed : rewritesOf (Analysis.ofFiles m patterns paths) = .ok rewrites)
    {entry : Path × Rewrite} (member : entry ∈ rewrites) : entry.1 ∈ paths := by
  induction paths generalizing rewrites with
  | nil =>
    cases analysed
    cases member
  | cons path rest ih =>
    obtain ⟨more, others, rfl⟩ := rewritesOf_ofFiles_cons analysed
    rcases List.mem_append.mp member with own | among
    · obtain ⟨r, -, rfl⟩ := List.mem_map.mp own
      exact List.mem_cons_self
    · exact List.mem_cons_of_mem _ (ih others among)

end Plan

namespace Analysis

theorem lastText_again (current : String) (rewrites : List Rewrite) :
    lastText (lastText current rewrites) rewrites = lastText current rewrites := by
  unfold lastText
  cases rewrites.getLast? <;> rfl

theorem lastText_repeated {α : Type} (current : String) (rewrites : List Rewrite)
    {times : List α} (once : times ≠ []) :
    lastText current (times.flatMap fun _ => rewrites) = lastText current rewrites := by
  induction times generalizing current with
  | nil => exact absurd rfl once
  | cons _ rest ih =>
    rw [List.flatMap_cons, lastText_append]
    by_cases more : rest = []
    · rw [more]
      rfl
    · rw [ih _ more, lastText_again]

theorem getLastD_after (current : String) (rewrites : List Rewrite) :
    (rewrites.map (some ·.after)).getLastD (some current) = some (lastText current rewrites) := by
  unfold lastText
  rw [List.getLastD_eq_getLast?, List.getLast?_map]
  cases rewrites.getLast? <;> rfl

end Analysis

end Uplift
