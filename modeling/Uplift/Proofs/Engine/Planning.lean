import Uplift.Collaborator.Standard
import Uplift.Engine.Basic
import Uplift.Proofs.Plan.Validity

/-!
# Planning with an engine

An engine is made of settings that passed their validation, so the numbers by which a plan is
assessed and cut into milestones are positive (`Settings.positive_of_valid`). Over a memory
store the engine then has a plan for every valid request, and for no other
(`Engine.plan_iff_valid`).
-/

namespace Uplift

namespace Settings

theorem positive_ok {option : String} {n : Nat} (h : positive option n = .ok ()) : 0 < n := by
  unfold positive at h
  split at h
  · cases h
  · omega

theorem positive_of_valid {s : Settings} (valid : s.validate = .ok ()) :
    0 < s.schedule.milestoneSize ∧ 0 < s.risk.complexityDivisor ∧ 0 < s.execution.timeoutMs := by
  unfold validate at valid
  obtain ⟨⟨⟩, size, valid⟩ := bind_ok valid
  obtain ⟨⟨⟩, divisor, valid⟩ := bind_ok valid
  obtain ⟨⟨⟩, timeout, -⟩ := bind_ok valid
  exact ⟨positive_ok size, positive_ok divisor, positive_ok timeout⟩

end Settings

theorem ValidationSummary.coverageOf_tests {code : List Step} (scanned : List Path)
    (tests : ∀ s ∈ code, s.path.isTest = true) : coverageOf code scanned = 100.0 := by
  have none : (code.map (·.path)).filter (fun p => !p.isTest) = [] := by
    simpa using tests
  rw [coverageOf, none]
  rfl

namespace Engine

theorem create_ok {σ : Type} [FileStore σ] {catalog : Catalog} {c : Collaborators σ}
    {s : Settings} {store : σ} {e : Engine σ} (created : create catalog c s store = .ok e) :
    s.validate = .ok () ∧
      e = {
        catalog := catalog, collaborators := c, settings := s, bench := { store := store } } := by
  unfold create at created
  split at created
  · rename_i valid
    exact ⟨valid, (Except.ok.inj created).symm⟩
  · cases created

/-- Over a memory store an engine has a plan for exactly the valid requests, and answers any other
with what its validation says. The globs of a valid request compile a second time, files that
cannot be read are passed over, and nothing is divided by zero. -/
theorem plan_iff_valid {catalog : Catalog} {c : Collaborators Memory} {s : Settings} {m : Memory}
    {e : Engine Memory} (created : create catalog c s m = .ok e) (id : String) (now : Timestamp)
    (r : Request) :
    ((∃ plan, e.plan id now r = .ok plan) ↔ r.validate = .ok ()) ∧
      (∀ error, r.validate = .error error → e.plan id now r = .error (.config error)) ∧
      (r.validate = .ok () → ∃ filter, PathFilter.ofRequest r = .ok filter) ∧
      (∀ paths, ∃ rewrites,
        Plan.rewritesOf (Analysis.ofFiles e.store e.catalog.all paths) = .ok rewrites) ∧
      (0 < e.settings.risk.complexityDivisor ∧ 0 < e.settings.schedule.milestoneSize ∧
        ∀ code scanned, (∀ s ∈ code, s.path.isTest = true) →
          ValidationSummary.coverageOf code scanned = 100.0) := by
  obtain ⟨settings, rfl⟩ := create_ok created
  obtain ⟨size, divisor, -⟩ := Settings.positive_of_valid settings
  have refused (error : ConfigError) (invalid : r.validate = .error error) :
      Plan.build id now s m catalog.all r = .error (.config error) :=
    Plan.build_of_invalid invalid
  refine ⟨⟨?_, Plan.build_of_valid⟩, refused, PathFilter.ofRequest_of_valid,
    Plan.rewritesOf_readable m catalog.all, divisor, size,
    fun _ scanned => ValidationSummary.coverageOf_tests scanned⟩
  rintro ⟨plan, built⟩
  cases judged : r.validate with
  | ok => rfl
  | error error =>
    cases built.symm.trans (refused error judged)

def brokenGlob : Request := { source := "1", target := "2", included := ["src/**", "[a"] }

theorem brokenGlob_refused :
    ∃ e : Engine Memory, create Catalog.builtin (Collaborators.standard {}) {}
        { files := .ofList [(⟨"src/a.js"⟩, "var a;")] } = .ok e ∧
      e.plan "m" ⟨0, 0⟩ brokenGlob = .error (.config (.invalidGlob "[a" .invalidRange)) ∧
      ∃ plan, e.plan "m" ⟨0, 0⟩ { brokenGlob with included := ["src/**"] } = .ok plan := by
  obtain ⟨e, created⟩ : ∃ e : Engine Memory, create Catalog.builtin (Collaborators.standard {}) {}
      { files := .ofList [(⟨"src/a.js"⟩, "var a;")] } = .ok e := by
    exact ⟨_, rfl⟩
  have law := plan_iff_valid created "m" ⟨0, 0⟩
  exact ⟨e, created, (law brokenGlob).2.1 _ rfl, (law _).1.mpr rfl⟩

end Engine

end Uplift
