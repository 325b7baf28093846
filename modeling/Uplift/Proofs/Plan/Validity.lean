import Uplift.Plan.Builder
import Uplift.Proofs.Files.Contents
import Uplift.Proofs.Files.Saving

/-!
# Which requests are planned

Validation compiles every glob of a request, and nothing else can keep the files from being
listed (`PathFilter.ofRequest_of_valid`). A file that cannot be read is passed over
(`Plan.rewritesOf_readable`). So over a memory store validation alone decides whether there is
a plan (`Plan.build_of_valid`, `Plan.build_of_invalid`).
-/

namespace Uplift

theorem forM_ok {ε α : Type} {f : α → Except ε Unit} {xs : List α} (h : xs.forM f = .ok ()) :
    ∀ x ∈ xs, f x = .ok () := by
  induction xs with
  | nil => nofun
  | cons x xs ih =>
    obtain ⟨⟨⟩, first, others⟩ := bind_ok (x := f x) (f := fun _ => xs.forM f) h
    exact List.forall_mem_cons.mpr ⟨first, ih others⟩

/-! ### Globs -/

theorem Request.compiles_of_valid {r : Request} (valid : r.validate = .ok ()) {glob : String}
    (given : glob ∈ r.included ++ r.excluded) : ∃ g, Glob.compile glob = .ok g := by
  unfold Request.validate at valid
  obtain ⟨-, -, valid⟩ := bind_ok valid
  obtain ⟨-, -, valid⟩ := bind_ok valid
  split at valid
  · obtain ⟨_, refused, -⟩ := bind_ok valid
    cases refused
  · obtain ⟨⟨⟩, globs, -⟩ := bind_ok valid
    have checked := forM_ok globs glob given
    unfold checkGlob at checked
    split at checked
    · rename_i g compiled
      exact ⟨g, compiled⟩
    · cases checked

namespace PathFilter

theorem compile_ok {globs : List String}
    (compiles : ∀ glob ∈ globs, ∃ g, Glob.compile glob = .ok g) : ∃ gs, compile globs = .ok gs := by
  unfold compile
  induction globs with
  | nil => exact ⟨[], rfl⟩
  | cons glob rest ih =>
    obtain ⟨⟨g, first⟩, others⟩ := List.forall_mem_cons.mp compiles
    obtain ⟨gs, rest⟩ := ih others
    rw [List.mapM_cons, first, rest]
    exact ⟨g :: gs, rfl⟩

theorem ofRequest_of_valid {r : Request} (valid : r.validate = .ok ()) :
    ∃ filter, ofRequest r = .ok filter := by
  obtain ⟨included, first⟩ := compile_ok fun glob (given : glob ∈ r.included) =>
    r.compiles_of_valid valid (List.mem_append_left _ given)
  obtain ⟨excluded, second⟩ := compile_ok fun glob (given : glob ∈ r.excluded) =>
    r.compiles_of_valid valid (List.mem_append_right _ given)
  rw [ofRequest, first, second]
  exact ⟨_, rfl⟩

end PathFilter

/-! ### Plans over a memory store -/

theorem Memory.list_of_valid (m : Memory) {r : Request} (valid : r.validate = .ok ()) :
    ∃ listed, FileStore.list m r = .ok listed := by
  obtain ⟨filter, chosen⟩ := PathFilter.ofRequest_of_valid valid
  refine ⟨(m.files.map (·.1)).filter filter.accepts, ?_⟩
  change m.list r = _
  rw [list, chosen]
  rfl

namespace Plan

/-- Whatever paths are asked for, no file keeps the others from being rewritten. -/
theorem rewritesOf_readable (m : Memory) (patterns : List Pattern) (paths : List Path) :
    ∃ rewrites, rewritesOf (Analysis.ofFiles m patterns paths) = .ok rewrites := by
  induction paths with
  | nil => exact ⟨[], rfl⟩
  | cons path rest ih =>
    obtain ⟨rewrites, others⟩ := ih
    unfold Analysis.ofFiles at others
    have unfolded : Analysis.ofFile m patterns path =
        (m.read path).map (Analysis.ofContent path · patterns) := rfl
    rw [Analysis.ofFiles, List.map_cons, unfolded, Memory.read]
    cases m.get? path with
    | none => exact ⟨rewrites, others⟩
    | some content =>
      simp only [Except.map, rewritesOf, others]
      exact ⟨_, rfl⟩

variable {id : String} {now : Timestamp} {s : Settings} {m : Memory} {patterns : List Pattern}
  {r : Request}

theorem build_of_valid (valid : r.validate = .ok ()) :
    ∃ plan, build id now s m patterns r = .ok plan := by
  obtain ⟨listed, scanned⟩ := m.list_of_valid valid
  obtain ⟨rewrites, analysed⟩ := rewritesOf_readable m patterns listed
  rw [build, valid]
  simp only [scanned, analysed]
  exact ⟨_, rfl⟩

theorem build_of_invalid {σ : Type} [FileStore σ] {store : σ} {error : ConfigError}
    (invalid : r.validate = .error error) :
    build id now s store patterns r = .error (.config error) := by
  rw [build, invalid]

end Plan

end Uplift
