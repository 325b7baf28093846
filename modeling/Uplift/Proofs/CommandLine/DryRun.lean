import Uplift.CommandLine.Program
import Uplift.Proofs.Files.Saving
import Uplift.Proofs.Plan.Building
import Uplift.Proofs.Run.DryRun

/-!
# Dry runs from the command line

Flags change the settings that they are about and leave the others to the request file,
but for one: whether a migration is a dry run rests on its flag alone, and what the file
says about it is lost. With the flag, no file changes but the report.
-/

namespace Uplift

theorem Engine.execute_dry {σ : Type} [FileStore σ] {e e' : Engine σ} {now : Timestamp}
    {plan : Plan} {cancelled : Nat → σ → Bool} {run : Run} (idle : e.bench.overdue = [])
    (dry : plan.request.dryRun = true) (ran : e.execute now plan cancelled = .ok (run, e')) :
    e'.store = e.store := by
  unfold Engine.execute at ran
  obtain ⟨entered, free, ran⟩ := bind_ok ran
  have same : entered.bench = e.bench := by
    unfold Engine.enter at free
    split at free
    · cases free
    · cases free
      rfl
  have still : ({ entered.bench with calls := 0, waited := 0 } : Bench σ).Still e.store := by
    rw [same]
    refine ⟨rfl, ?_⟩
    intro effect late
    have late : effect ∈ e.bench.overdue := late
    rw [idle] at late
    cases late
  have after := Execution.run_dry (c := entered.collaborators)
    (k := entered.conditions now cancelled) dry still
  cases ran
  exact after.now

namespace CommandLine

/-! ### Settings -/

/-- The setting of a request that a flag is about. -/
def Flag.setting? : Flag → Option String
  | source => some "source_version"
  | target => some "target_version"
  | move => some "migration_type"
  | safety => some "safety_level"
  | tests => some "include_tests"
  | noBackup => some "backup_enabled"
  | noRollback => some "rollback_enabled"
  | included => some "include"
  | excluded => some "exclude"
  | override => some "config_overrides"
  | dryRun => some "dry_run"
  | root | settings | verbose | plain | help | version | config | testCommand | report
  | category | json => none

def Arguments.LeavesAlone (a : Arguments) (setting : String) : Prop :=
  ∀ f : Flag, f.setting? = some setting → a.value? f = none

namespace Arguments

variable {a : Arguments} {f : Flag}

theorem not_given_of_value? (unset : a.value? f = none) : ∀ entry ∈ a.after, entry.1 ≠ f := by
  have behind : a.after.lookup f = none := by
    unfold value? at unset
    cases found : a.after.lookup f with
    | none => rfl
    | some value =>
      rw [found] at unset
      cases unset
  intro entry member same
  have apart := List.lookup_eq_none_iff.mp behind entry member
  simp [same] at apart

theorem has_of_value? (unset : a.value? f = none) : a.has f = false := by
  unfold has
  rw [List.any_eq_false]
  intro entry member
  simpa using not_given_of_value? unset entry member

theorem values_of_value? (unset : a.value? f = none) : a.values f = [] := by
  have none : a.after.filter (·.1 = f) = [] := by
    rw [List.filter_eq_nil_iff]
    intro entry member
    simpa using not_given_of_value? unset entry member
  unfold values
  rw [none]
  rfl

end Arguments

/-- A setting that no given flag is about keeps the value of the file, except `dry_run`. -/
theorem adjust_leaves_alone {a : Arguments} (r : Request) {slot : Json.Slot Request}
    (field : slot ∈ Request.record) (other : slot.name ≠ "dry_run")
    (alone : a.LeavesAlone slot.name) : slot.write (adjust a r) = slot.write r := by
  simp only [Request.record, List.mem_cons, List.not_mem_nil, or_false] at field
  rcases field with rfl | rfl | rfl | rfl | rfl | rfl | rfl | rfl | rfl | rfl | rfl | rfl | rfl | rfl
  · have unset := alone .source rfl
    simp [Request.text, Json.Slot.of, adjust, unset]
  · have unset := alone .target rfl
    simp [Request.text, Json.Slot.of, adjust, unset]
  · have unset := alone .move rfl
    simp [Json.Slot.of, adjust, unset]
  · have unset := alone .safety rfl
    simp [Json.Slot.of, adjust, unset]
  · rfl
  · exact absurd rfl other
  · have unset := Arguments.has_of_value? (alone .noBackup rfl)
    simp [Request.flag, Json.Slot.of, adjust, unset]
  · have unset := Arguments.has_of_value? (alone .noRollback rfl)
    simp [Request.flag, Json.Slot.of, adjust, unset]
  · have unset := Arguments.has_of_value? (alone .tests rfl)
    simp [Request.flag, Json.Slot.of, adjust, unset]
  · have unset := Arguments.values_of_value? (alone .included rfl)
    simp [Request.texts, Json.Slot.of, adjust, unset]
  · have unset := Arguments.values_of_value? (alone .excluded rfl)
    simp [Request.texts, Json.Slot.of, adjust, unset]
  · rfl
  · rfl
  · have unset := Arguments.values_of_value? (alone .override rfl)
    simp [Json.Slot.of, adjust, unset, Keyed.extend]

theorem adjust_dryRun {a : Arguments} (migrates : a.verb = .migrate) (r : Request) :
    (adjust a r).dryRun = a.has .dryRun := if_pos migrates

/-! ### Files -/

theorem openRoot_ok {d project : Disk} {root : Path} (opened : openRoot d root = .ok project) :
    ∃ base, project = d.startingAt root base := by
  unfold openRoot at opened
  split at opened
  · cases opened
  · split at opened
    · rename_i s found
      cases opened
      exact ⟨s.start, rfl⟩
    · cases opened

theorem openEngine_ok {o : Occasion} {a : Arguments} {s : Settings} {d : Disk} {e : Engine Disk}
    (opened : openEngine o a s d = .ok e) :
    (∃ base, e.store = d.startingAt (rootOf a) base) ∧ e.bench.overdue = [] := by
  unfold openEngine at opened
  obtain ⟨project, found, opened⟩ := bind_ok opened
  obtain ⟨tests, -, opened⟩ := bind_ok opened
  have created := mapError_ok opened
  obtain ⟨base, rfl⟩ := openRoot_ok found
  obtain ⟨catalog, -, created⟩ := bind_ok created
  unfold Engine.create at created
  split at created
  · cases created
    exact ⟨⟨base, rfl⟩, rfl⟩
  · cases created

/-- The report goes to another place than this one, or to no file. -/
def Arguments.ReportsElsewhere (a : Arguments) (d : Disk) (l : Location) : Prop :=
  ∀ p, a.value? .report = some p → ¬d.LeadsTo ⟨p⟩ l

theorem saveReport_elsewhere {a : Arguments} {d d' : Disk} {r : Run} {l : Location}
    (saved : saveReport a d r = .ok d') (elsewhere : a.ReportsElsewhere d l) :
    d'.entryAt? l = d.entryAt? l := by
  unfold saveReport at saved
  split at saved
  · rename_i p named
    unfold writeFile at saved
    split at saved
    · cases saved
    · exact Disk.saveAt_elsewhere (mapError_ok saved) (elsewhere p named)
  · cases saved
    rfl

theorem migrated_dry {o : Occasion} {a : Arguments} {d : Disk} {e : Engine Disk} {r : Request}
    {l : Location} (opened : ∃ root base, e.store = d.startingAt root base)
    (idle : e.bench.overdue = []) (dry : r.dryRun = true) (elsewhere : a.ReportsElsewhere d l) :
    (migrated o a d e r).disk.entryAt? l = d.entryAt? l := by
  obtain ⟨root, base, opened⟩ := opened
  unfold migrated
  dsimp only
  split
  · rfl
  · rename_i run e' ran
    obtain ⟨plan, planned, ran⟩ := bind_ok ran
    have planDry : plan.request.dryRun = true := by rw [Plan.build_request planned, dry]
    have kept : e'.store.startingAt d.root d.base = d := by
      rw [Engine.execute_dry idle planDry ran, opened]
      rfl
    rw [kept]
    split
    · rfl
    · rename_i after saved
      have same := saveReport_elsewhere saved elsewhere
      split
      · exact same
      · exact same

theorem perform_dry {o : Occasion} {a : Arguments} {d : Disk} {l : Location} {ending : Ending}
    (migrates : a.verb = .migrate) (dry : a.has .dryRun = true)
    (elsewhere : a.ReportsElsewhere d l) (performed : perform o a d = .ok ending) :
    ending.disk.entryAt? l = d.entryAt? l := by
  unfold perform at performed
  rw [migrates] at performed
  obtain ⟨s, -, performed⟩ := bind_ok performed
  obtain ⟨e, opened, performed⟩ := bind_ok performed
  obtain ⟨r, asked, performed⟩ := bind_ok performed
  have requestDry : r.dryRun = true := by
    obtain ⟨file, -, asked⟩ := bind_ok asked
    dsimp only at asked
    split at asked
    · cases asked
    · cases asked
      rw [adjust_dryRun migrates, dry]
  obtain ⟨⟨base, store⟩, idle⟩ := openEngine_ok opened
  cases performed
  exact migrated_dry ⟨_, base, store⟩ idle requestDry elsewhere

/-- Flags leave alone what they are not about, but the file's word on a dry run counts for
nothing. If the flag asks for a dry run, only the report is written. -/
theorem dry_run_rests_on_flag {o : Occasion} {a : Arguments} (d : Disk)
    (read : Arguments.read o.env o.args = .ok a) (migrates : a.verb = .migrate) :
    (∀ (r : Request) (dry : Bool),
      adjust a { r with dryRun := dry } = { adjust a r with dryRun := a.has .dryRun }) ∧
    (∀ (r : Request), ∀ slot ∈ Request.record, slot.name ≠ "dry_run" →
      a.LeavesAlone slot.name → slot.write (adjust a r) = slot.write r) ∧
    (a.has .dryRun = true → ∀ l, a.ReportsElsewhere d l →
      (run o d).disk.entryAt? l = d.entryAt? l) := by
  refine ⟨?_, ?_, ?_⟩
  · intro r dry
    unfold adjust
    rw [if_pos migrates]
  · intro r slot field other alone
    exact adjust_leaves_alone r field other alone
  · intro dry l elsewhere
    unfold run
    rw [read]
    dsimp only
    cases performed : perform o a d with
    | ok ending => exact perform_dry migrates dry elsewhere performed
    | error f => rfl

/-- A request file that asks for a dry run, alone in its project. -/
def previewDisk : Disk :=
  { root := ⟨"."⟩
    entries := [(["request"], .file (.text
      "\x7b\"source_version\": \"1\", \"target_version\": \"2\", \"dry_run\": true\x7d"))] }

def previewOccasion (flags : List String) : Occasion :=
  { args := "migrate" :: "--config" :: "request" :: flags, id := "m", now := ⟨0, 0⟩ }

def previewArguments (flags : Given) : Arguments :=
  { verb := .migrate, after := (.config, "request") :: flags }

theorem preview_with_flag :
    Arguments.read [] (previewOccasion ["--dry-run"]).args =
      .ok (previewArguments [(.dryRun, "")]) ∧
    ∀ l, (run (previewOccasion ["--dry-run"]) previewDisk).disk.entryAt? l =
      previewDisk.entryAt? l := by
  have read : Arguments.read [] (previewOccasion ["--dry-run"]).args =
      .ok (previewArguments [(.dryRun, "")]) := rfl
  obtain ⟨-, -, files⟩ := dry_run_rests_on_flag (o := previewOccasion ["--dry-run"]) previewDisk
    read rfl
  refine ⟨read, fun l => files rfl l ?_⟩
  intro p named
  cases named

/-- The same file without the flag: the build configuration is written. -/
theorem preview_without_flag :
    (requestFile (previewArguments []) previewDisk).toOption.map (·.dryRun) = some true ∧
    (run (previewOccasion []) previewDisk).disk.entryAt? ["tsconfig.json"] ≠
      previewDisk.entryAt? ["tsconfig.json"] := by
  decide +kernel

end CommandLine

end Uplift
