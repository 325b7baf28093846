import Uplift.Proofs.Collaborator.Settings
import Uplift.Proofs.Plan.Building
import Uplift.Proofs.Plan.Validity

/-!
# The versions that are recorded

The step of a plan that changes the build configuration records two versions, each as the JSON
that its text is, or as a string if it is none. So two versions are recorded as the same value
exactly if they are `Mistaken` for each other (`recorded_versions_equal_iff`). Texts that start
with two numbers and a dot behind each are no JSON and are told apart (`Dotted.valueOf`); a number
with more digits than a word holds is not (`longVersions_recorded_alike`).
-/

namespace Uplift

/-! ### Texts that are numbers, and texts that are none -/

namespace Json

theorem scanNumber_dotted {whole fraction : List Char} (isWhole : IsDigits whole)
    (isFraction : IsDigits fraction) (rest : List Char) (n : Nat) :
    ∃ d after, scanNumber false ⟨whole ++ '.' :: (fraction ++ '.' :: rest), n⟩ = (d, after) ∧
      ((∃ b, d = .broken b) ∨ ∃ value stop, d = .number value ∧ after = some ⟨'.' :: rest, stop⟩) := by
  obtain ⟨given, all⟩ := isWhole
  obtain ⟨given', all'⟩ := isFraction
  have point (text : List Char) : ∀ c ∈ ('.' :: text).head?, c.isDigit = false := by
    rintro c ⟨⟩
    rfl
  have taken := takeDigits_append all (point (fraction ++ '.' :: rest)) n
  obtain ⟨d, digits, rfl⟩ := List.exists_cons_of_ne_nil given
  have first : d.isDigit = true := all d List.mem_cons_self
  rw [scanNumber]
  rw [List.cons_append] at taken ⊢
  dsimp only
  rw [taken, if_neg fun none => none first]
  dsimp only
  split
  case isTrue => exact ⟨_, _, rfl, .inl ⟨_, rfl⟩⟩
  case isFalse =>
    have taken' := takeDigits_append all' (point rest) (n + (d :: digits).length + 1)
    split
    case h_2 no => exact absurd rfl (no _)
    case h_1 shape =>
      obtain ⟨-, rfl⟩ := List.cons.inj shape
      rw [taken']
      dsimp only
      rw [if_neg fun none => given' (List.isEmpty_iff.mp none)]
      exact ⟨_, _, rfl, .inr ⟨_, _, rfl, rfl⟩⟩

theorem parse?_dotted {whole fraction : List Char} (isWhole : IsDigits whole)
    (isFraction : IsDigits fraction) (rest : List Char) :
    ∃ fault, parse? (String.ofList (whole ++ '.' :: (fraction ++ '.' :: rest))) = .error fault := by
  obtain ⟨d, after, scanned, outcome⟩ := scanNumber_dotted isWhole isFraction rest 0
  obtain ⟨given, all⟩ := isWhole
  obtain ⟨c, digits, rfl⟩ := List.exists_cons_of_ne_nil given
  rw [parse?, Text.read, readAt, Cursor.ofString, String.toList_ofList]
  rw [List.cons_append] at scanned ⊢
  rw [readValue_digit (all c List.mem_cons_self), scanned]
  obtain ⟨b, rfl⟩ | ⟨value, stop, rfl, rfl⟩ := outcome
  · cases after with
    | none => exact ⟨_, rfl⟩
    | some c => exact ⟨_, rfl⟩
  · cases value with
    | ok number => exact ⟨_, rfl⟩
    | error fault => exact ⟨_, rfl⟩

end Json

namespace BuildConfig

open Json (Members Opens)
open JsonFile (Opened Prints)

/-! ### What a text is recorded as -/

/-- Both texts are JSON for one value, or one of them is JSON for the string that the other one
is, which is no JSON itself. -/
inductive Mistaken : String → String → Prop
  | refl (a : String) : Mistaken a a
  | value {a b : String} {value : Json} (read : Json.parse? a = .ok value)
      (read' : Json.parse? b = .ok value) : Mistaken a b
  | spells {a b : String} {fault : Json.Fault} (read : Json.parse? a = .ok (.string b))
      (plain : Json.parse? b = .error fault) : Mistaken a b
  | spelled {a b : String} {fault : Json.Fault} (plain : Json.parse? a = .error fault)
      (read : Json.parse? b = .ok (.string a)) : Mistaken a b

theorem valueOf_of_plain {raw : String} {fault : Json.Fault}
    (plain : Json.parse? raw = .error fault) : valueOf raw = .string raw := by
  rw [valueOf, plain]

/-- The text starts with two numbers, each with a dot behind it. -/
def Dotted (version : String) : Prop :=
  ∃ (major minor : Nat) (rest : String), version = s!"{major}.{minor}.{rest}"

theorem Dotted.valueOf {version : String} (dotted : Dotted version) :
    valueOf version = .string version := by
  obtain ⟨major, minor, rest, given⟩ := dotted
  have text : version.toList =
      Nat.toDigits 10 major ++ '.' :: (Nat.toDigits 10 minor ++ '.' :: rest.toList) := by
    rw [given]
    change (toString major ++ "." ++ toString minor ++ "." ++ rest).toList = _
    simp
  obtain ⟨fault, read⟩ := Json.parse?_dotted (Json.isDigits_toDigits major)
    (Json.isDigits_toDigits minor) rest.toList
  rw [← text, String.ofList_toList] at read
  exact valueOf_of_plain read

theorem valueOf_eq_iff {a b : String} : valueOf a = valueOf b ↔ Mistaken a b := by
  constructor
  · intro same
    cases read : Json.parse? a with
    | ok value =>
      rw [valueOf_of_read read] at same
      cases read' : Json.parse? b with
      | ok value' =>
        rw [valueOf_of_read read'] at same
        exact .value read (same ▸ read')
      | error fault =>
        rw [valueOf_of_plain read'] at same
        exact .spells (same ▸ read) read'
    | error fault =>
      rw [valueOf_of_plain read] at same
      cases read' : Json.parse? b with
      | ok value' =>
        rw [valueOf_of_read read'] at same
        exact .spelled read (same ▸ read')
      | error fault' =>
        rw [valueOf_of_plain read'] at same
        cases same
        exact .refl a
  · intro mistaken
    cases mistaken with
    | refl => rfl
    | value read read' => rw [valueOf_of_read read, valueOf_of_read read']
    | spells read plain => rw [valueOf_of_read read, valueOf_of_plain plain]
    | spelled plain read => rw [valueOf_of_plain plain, valueOf_of_read read]

/-! ### The versions in an object -/

structure Records (root : Members) (source target : Json) : Prop where
  source : (Json.object root).at? (segments sourceVersionKey) = some source
  target : (Json.object root).at? (segments targetVersionKey) = some target

/-- The versions that an object records as they are, if they are dotted. -/
structure RecordsDotted (root : Members) (source target : String) : Prop where
  source : Dotted source →
    (Json.object root).at? (segments sourceVersionKey) = some (.string source)
  target : Dotted target →
    (Json.object root).at? (segments targetVersionKey) = some (.string target)

theorem Records.dotted {root : Members} {source target : String}
    (records : Records root (valueOf source) (valueOf target)) :
    RecordsDotted root source target :=
  ⟨fun dotted => dotted.valueOf ▸ records.source, fun dotted => dotted.valueOf ▸ records.target⟩

def versionParams (source target : String) : Keyed String :=
  [(sourceVersionKey, source), (targetVersionKey, target)]

theorem segments_sourceVersionKey : segments sourceVersionKey = ["codemig", "sourceVersion"] := by
  cbv

theorem segments_targetVersionKey : segments targetVersionKey = ["codemig", "targetVersion"] := by
  cbv

variable {old new root inner : Members} {source target : String}

theorem assign_versions (opens : Opens root "codemig" inner) (value : Json) :
    (assign sourceVersionKey value root).1 = .ok () ∧
      Opens (assign sourceVersionKey value root).2 "codemig" (inner.insert "sourceVersion" value) ∧
      (assign targetVersionKey value root).1 = .ok () := by
  rw [assign, assign, segments_sourceVersionKey, segments_targetVersionKey, walk_of_opens opens,
    walk_of_opens opens]
  exact ⟨rfl, .inl (Keyed.get?_insert_self ..), rfl⟩

/-- Versions can be recorded where nothing stands at their key, or an object. -/
theorem setAll_versions_iff :
    (∃ new, setAll (versionParams source target) old = .ok new) ↔
      ∃ inner, Opens old "codemig" inner := by
  constructor
  · rintro ⟨new, set⟩
    obtain ⟨made, -⟩ := setAll_cons.mp set
    rcases Json.opens_or_other old "codemig" with opened | ⟨other, blocked, scalar⟩
    · exact opened
    · rw [assign, segments_sourceVersionKey, walk_of_blocked blocked scalar] at made
      cases made
  · rintro ⟨inner, opens⟩
    obtain ⟨made, opens', -⟩ := assign_versions opens (valueOf source)
    obtain ⟨-, -, made'⟩ := assign_versions opens' (valueOf target)
    exact ⟨_, setAll_cons.mpr ⟨made, setAll_cons.mpr ⟨made', rfl⟩⟩⟩

theorem records_of_set (set : setAll (versionParams source target) old = .ok new) :
    Records new (valueOf source) (valueOf target) := by
  obtain ⟨made, others⟩ := setAll_cons.mp set
  obtain ⟨made', ⟨⟩⟩ := setAll_cons.mp others
  have apart : Apart (segments targetVersionKey) (segments sourceVersionKey) := by
    rw [segments_targetVersionKey, segments_sourceVersionKey]
    exact ⟨by decide, by decide⟩
  constructor
  · exact (at?_walk_apart apart _ _).trans (at?_walk_self _ _ old (segments_spec _).1 made)
  · exact at?_walk_self _ _ _ (segments_spec _).1 made'

end BuildConfig

/-! ### The step of a plan -/

namespace Plan

def PlansConfig (r : Request) (step : Step) : Prop :=
  ∃ (σ : Type) (_ : FileStore σ) (id : String) (now : Timestamp) (settings : Settings) (store : σ)
    (patterns : List Pattern) (plan : Plan),
    build id now settings store patterns r = .ok plan ∧ step ∈ plan.steps ∧
      step.kind = .configChange

variable {r : Request} {step : Step}

theorem configStep_of_planned (planned : PlansConfig r step) :
    ∃ policy position, step = configStep r policy position := by
  obtain ⟨σ, store, id, now, settings, files, patterns, plan, built, member, kind⟩ := planned
  obtain ⟨listed, rewrites, -, -, rfl⟩ := build_ok built
  rcases List.mem_append.mp member with code | beside
  · rw [kind_of_codeStep code] at kind
    cases kind
  · obtain ⟨position, rfl | rfl | rfl⟩ := auxiliarySteps_cases beside
    · cases kind
    · exact ⟨_, position, rfl⟩
    · cases kind

theorem configStep_wanted (moves : r.move.touchesBuildConfig = true) (policy : PlanningPolicy)
    (patterns : List Pattern) (listed : List Path) (code : List Step) :
    ∃ position, configStep r policy.configChange position ∈
      auxiliarySteps r policy patterns listed code := by
  have placed {wanted : List (Nat → Step)} {step : Nat → Step} (member : step ∈ wanted) :
      ∃ position, step position ∈ wanted.mapIdx fun i step => step (code.length + i) := by
    obtain ⟨i, bound, same⟩ := List.getElem_of_mem member
    exact ⟨code.length + i, List.mem_mapIdx.mpr ⟨i, bound, congrFun same _⟩⟩
  unfold auxiliarySteps
  dsimp only
  rw [if_pos moves]
  exact placed (List.mem_append_left _ (List.mem_append_right _ List.mem_cons_self))

theorem exists_planned (valid : r.validate = .ok ()) (moves : r.move.touchesBuildConfig = true) :
    ∃ step, PlansConfig r step := by
  obtain ⟨plan, built⟩ : ∃ plan, build "" default {} ({} : Memory) [] r = .ok plan :=
    build_of_valid valid
  obtain ⟨listed, rewrites, -, -, rfl⟩ := build_ok built
  obtain ⟨position, member⟩ := configStep_wanted moves _ _ listed (codeSteps _ rewrites)
  exact ⟨_, _, _, _, _, _, _, _, _, built, List.mem_append_right _ member, rfl⟩

theorem params_configStep (plain : r.overrides = []) (policy : StepPolicy) (position : Nat) :
    (configStep r policy position).params = BuildConfig.versionParams r.source r.target := by
  have before : sourceVersionKey < targetVersionKey := by decide +kernel
  have ascending : ∀ pair ∈ [(sourceVersionKey, r.source)], pair.1 < targetVersionKey :=
    List.forall_mem_singleton.mpr before
  have pairs : Keyed.ofList [(sourceVersionKey, r.source), (targetVersionKey, r.target)] =
      BuildConfig.versionParams r.source r.target := Keyed.insert_behind ascending r.target
  rw [configStep, plain, pairs]
  rfl

end Plan

namespace BuildConfig

open Json (Members Opens)
open JsonFile (Opened Prints)
open Plan (PlansConfig)

section

variable {m : Memory} {r r' : Request} {step step' : Step}

/-- The step sets the two versions, and nothing else, in the file that the request names. -/
theorem planned_step (planned : PlansConfig r step) (plain : r.overrides = []) :
    step.path = r.buildConfig ∧ step.params = versionParams r.source r.target := by
  obtain ⟨policy, position, rfl⟩ := Plan.configStep_of_planned planned
  exact ⟨rfl, Plan.params_configStep plain policy position⟩

theorem update_versions_iff (planned : PlansConfig r step) (plain : r.overrides = []) :
    (update step m).result = .ok () ↔
      ∃ old inner, Opened m r.buildConfig old ∧ Opens old "codemig" inner ∧
        m.denies r.buildConfig = false := by
  obtain ⟨path, params⟩ := planned_step planned plain
  constructor
  · intro done
    obtain ⟨old, new, opened, set, writable⟩ := set_of_update done
    rw [params] at set
    rw [path] at opened writable
    obtain ⟨inner, opens⟩ := setAll_versions_iff.mp ⟨new, set⟩
    exact ⟨old, inner, opened, opens, writable⟩
  · rintro ⟨old, inner, opened, opens, writable⟩
    obtain ⟨new, set⟩ := setAll_versions_iff.mpr ⟨inner, opens⟩
    rw [← params] at set
    rw [← path] at opened writable
    rw [update_of_set opened set writable]

theorem update_records (planned : PlansConfig r step) (plain : r.overrides = [])
    (done : (update step m).result = .ok ()) :
    ∃ new, Prints (update step m).after r.buildConfig new ∧
      Records new (valueOf r.source) (valueOf r.target) := by
  obtain ⟨path, params⟩ := planned_step planned plain
  obtain ⟨old, new, opened, set, writable⟩ := set_of_update done
  refine ⟨new, ?_, records_of_set (params ▸ set)⟩
  rw [update_of_set opened set writable, ← path]
  exact JsonFile.prints_tryPut new writable

/-- Of two plans that set no further parameters in the same build configuration either both steps
come through or none. Both versions are then recorded as what their texts are, and two of them are
the same value exactly if the one text is mistaken for the other one. Dotted versions are recorded
as they are. -/
theorem recorded_versions_equal_iff (m : Memory) (planned : PlansConfig r step)
    (planned' : PlansConfig r' step') (plain : r.overrides = []) (plain' : r'.overrides = [])
    (same : r'.buildConfig = r.buildConfig) :
    ((update step' m).result = .ok () ↔ (update step m).result = .ok ()) ∧
      ((update step m).result = .ok () ↔ ∃ old inner, Opened m r.buildConfig old ∧
        Opens old "codemig" inner ∧ m.denies r.buildConfig = false) ∧
      ((update step m).result = .ok () → ∃ new new',
        Prints (update step m).after r.buildConfig new ∧
        Prints (update step' m).after r.buildConfig new' ∧
        Records new (valueOf r.source) (valueOf r.target) ∧
        Records new' (valueOf r'.source) (valueOf r'.target) ∧
        (valueOf r.source = valueOf r'.source ↔ Mistaken r.source r'.source) ∧
        (valueOf r.target = valueOf r'.target ↔ Mistaken r.target r'.target) ∧
        RecordsDotted new r.source r.target ∧ RecordsDotted new' r'.source r'.target) := by
  have comes := update_versions_iff (m := m) planned plain
  have comes' := update_versions_iff (m := m) planned' plain'
  rw [same] at comes'
  refine ⟨comes'.trans comes.symm, comes, fun done => ?_⟩
  obtain ⟨new, prints, records⟩ := update_records planned plain done
  obtain ⟨new', prints', records'⟩ := update_records planned' plain' (comes'.mpr (comes.mp done))
  rw [same] at prints'
  exact ⟨new, new', prints, prints', records, records', valueOf_eq_iff, valueOf_eq_iff,
    records.dotted, records'.dotted⟩

end

def upgradeTo (target : String) : Request where
  source := "17.0.2"
  target := target

theorem dottedVersions_told_apart :
    ∃ step step', PlansConfig (upgradeTo "18.2.0") step ∧ PlansConfig (upgradeTo "18.10.0") step' ∧
      (update step ({} : Memory)).result = .ok () ∧ (update step' ({} : Memory)).result = .ok () ∧
      ∃ new new', Prints (update step ({} : Memory)).after ⟨"tsconfig.json"⟩ new ∧
        Prints (update step' ({} : Memory)).after ⟨"tsconfig.json"⟩ new' ∧
        Records new (.string "17.0.2") (.string "18.2.0") ∧
        Records new' (.string "17.0.2") (.string "18.10.0") := by
  obtain ⟨step, planned⟩ := Plan.exists_planned (r := upgradeTo "18.2.0") (by decide +kernel) rfl
  obtain ⟨step', planned'⟩ := Plan.exists_planned (r := upgradeTo "18.10.0") (by decide +kernel) rfl
  have source : Dotted "17.0.2" := ⟨17, 0, "2", rfl⟩
  have target : Dotted "18.2.0" := ⟨18, 2, "0", rfl⟩
  have target' : Dotted "18.10.0" := ⟨18, 10, "0", rfl⟩
  obtain ⟨both, comes, records⟩ := recorded_versions_equal_iff {} planned planned' rfl rfl rfl
  have done : (update step ({} : Memory)).result = .ok () :=
    comes.mpr ⟨[], [], .inr ⟨rfl, rfl⟩, .inr ⟨rfl, rfl⟩, rfl⟩
  obtain ⟨new, new', prints, prints', -, -, -, -, dotted, dotted'⟩ := records done
  exact ⟨step, step', planned, planned', done, both.mpr done, new, new', prints, prints',
    ⟨dotted.source source, dotted.target target⟩, ⟨dotted'.source source, dotted'.target target'⟩⟩

def longDigits : List Char := "013123595900000000".toList

/-- The last four digits of this version fit no word, so none of them counts. -/
def longVersion (last : Char) : String := "2024." ++ String.ofList (longDigits ++ [last])

theorem valueOf_longVersion (last : Char) (digit : last.isDigit = true) :
    valueOf (longVersion last) = .number
      (Json.signed false ((2024013123595900000 : Nat).toUInt64.toFloat / Json.power10 15)) := by
  let numeral : Json.Numeral := ⟨false, ['2', '0', '2', '4'], some (longDigits ++ [last]), none⟩
  have isWhole : Json.IsDigits ['2', '0', '2', '4'] := ⟨nofun, List.all_eq_true.mp rfl⟩
  have all : ∀ c ∈ longDigits, c.isDigit = true := List.all_eq_true.mp (by decide +kernel)
  have isFraction : Json.IsDigits (longDigits ++ [last]) :=
    ⟨by simp, List.forall_mem_append.mpr ⟨all, List.forall_mem_singleton.mpr digit⟩⟩
  have formed : numeral.WellFormed := by
    refine ⟨isWhole, nofun, ?_, nofun⟩
    rintro fraction ⟨⟩
    exact isFraction
  have text : longVersion last = String.ofList numeral.text := by
    simp [← String.toList_inj, longVersion, numeral, Json.Numeral.text, Json.Numeral.unsigned,
      Json.Numeral.fractionText, Json.Numeral.exponentText]
  obtain ⟨exponentAt, stop, document⟩ := Json.read_numeral formed
  have value : numeral.value exponentAt stop = .ok
      (Json.signed false ((2024013123595900000 : Nat).toUInt64.toFloat / Json.power10 15)) := by
    have whole : Json.gather ['2', '0', '2', '4'] 0 0 = (2024, 0) := by decide
    have most : Json.gather longDigits 2024 0 = (2024013123595900000, 3) := by decide +kernel
    have fraction : Json.gather (longDigits ++ [last]) 2024 0 = (2024013123595900000, 4) := by
      have lost : ¬3 = 0 := by decide
      rw [Json.gather_append, most, Json.gather, if_neg fun fits => lost fits.1, Json.gather]
    have length : (longDigits ++ [last]).length = 19 := by
      rw [List.length_append]
      rfl
    simp only [numeral, Json.Numeral.value, whole, fraction, length, Json.Numeral.value.finish]
    rw [Json.scaleBy]
    rfl
  refine valueOf_of_read ?_
  rw [text, Json.parse?, document, Json.Document.value, value]
  rfl

theorem longVersions_recorded_alike :
    let r := upgradeTo (longVersion '1')
    let r' := upgradeTo (longVersion '2')
    r'.target ≠ r.target ∧ r.validate = .ok () ∧ r'.validate = .ok () ∧
      ∃ step step' new new' value, PlansConfig r step ∧ PlansConfig r' step' ∧
        (update step ({} : Memory)).result = .ok () ∧
        (update step' ({} : Memory)).result = .ok () ∧
        Prints (update step ({} : Memory)).after r.buildConfig new ∧
        Prints (update step' ({} : Memory)).after r.buildConfig new' ∧
        (Json.object new).at? (segments targetVersionKey) = some value ∧
        (Json.object new').at? (segments targetVersionKey) = some value := by
  intro r r'
  have valid : r.validate = .ok () := by decide +kernel
  have valid' : r'.validate = .ok () := by decide +kernel
  obtain ⟨step, planned⟩ := Plan.exists_planned valid rfl
  obtain ⟨step', planned'⟩ := Plan.exists_planned valid' rfl
  have done : (update step ({} : Memory)).result = .ok () :=
    (update_versions_iff planned rfl).mpr ⟨[], [], .inr ⟨rfl, rfl⟩, .inr ⟨rfl, rfl⟩, rfl⟩
  have done' : (update step' ({} : Memory)).result = .ok () :=
    (update_versions_iff planned' rfl).mpr ⟨[], [], .inr ⟨rfl, rfl⟩, .inr ⟨rfl, rfl⟩, rfl⟩
  obtain ⟨new, prints, records⟩ := update_records planned rfl done
  obtain ⟨new', prints', records'⟩ := update_records planned' rfl done'
  have target : valueOf r.target = _ := valueOf_longVersion '1' rfl
  have target' : valueOf r'.target = _ := valueOf_longVersion '2' rfl
  refine ⟨by decide, valid, valid', step, step', new, new', _, planned, planned', done, done', prints,
    prints', records.target, ?_⟩
  rw [records'.target, target, target']

end BuildConfig

end Uplift
