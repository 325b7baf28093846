import Mathlib.Data.List.Induction
import Uplift.Proofs.Collaborator.Settings
import Uplift.Proofs.Json.Legibility

/-!
# What an update leaves to be read

An update writes an object however deep it is nested, but only so deep can it be read again.
Adding packages nests nothing deeper than what was read before. A setting may: the segments of
its key alone can be more than that (`length_le_of_fits`), and then no later update can read the
file that was written (`deepStep_unreadable`).
-/

namespace Uplift

/-- What stands at the end of a path is nested in as many containers as the path has keys. -/
theorem Json.Fits.at? {j value : Json} {path : List String} {depth : Nat} (fits : j.Fits depth)
    (held : j.at? path = some value) :
    ∃ left, left + path.length = depth ∧ value.Fits left := by
  induction path generalizing j depth with
  | nil =>
    cases held
    exact ⟨depth, rfl, fits⟩
  | cons key rest ih =>
    obtain ⟨inner, entered, behind⟩ := Option.bind_eq_some_iff.mp held
    obtain ⟨members, object, entry⟩ := Option.bind_eq_some_iff.mp entered
    cases fits with
    | object each =>
      cases object
      obtain ⟨left, rfl, own⟩ := ih (each _ (Keyed.mem_of_get? entry)) behind
      exact ⟨left, rfl, own⟩
    | _ => cases object

theorem Json.at?_append (path rest : List String) (j : Json) :
    j.at? (path ++ rest) = (j.at? path).bind (Json.at? rest) := by
  induction path generalizing j with
  | nil => rfl
  | cons key path ih =>
    have others : Json.at? (path ++ rest) = fun j => (j.at? path).bind (Json.at? rest) := funext ih
    simp only [List.cons_append, Json.at?, others, Option.bind_assoc]

namespace BuildConfig

open Json (Members)

variable {params : Keyed String} {old new root : Members} {value : Json}
  {path other : List String}

/-! ### How deep settings go -/

theorem fits_walk (path : List String) {left : Nat}
    (fits : (Json.object root).Fits (left + path.length)) (own : value.Fits left) :
    (Json.object (walk path value root).2).Fits (left + path.length) := by
  induction path generalizing root with
  | nil => exact fits
  | cons segment rest ih =>
    cases rest with
    | nil => exact fits.insert segment own
    | cons next rest =>
      rcases Json.opens_or_other root segment with ⟨inner, opens⟩ | ⟨other, blocked, scalar⟩
      · rw [walk_of_opens opens]
        exact fits.insert segment (ih (fits.opens opens))
      · rw [walk_of_blocked blocked scalar]
        exact fits

/-- The parameter's value is nested no deeper than what can be read, where its key puts it. -/
def Shallow (param : String × String) : Prop :=
  ∃ left, left + (segments param.1).length = Json.maxDepth ∧ (valueOf param.2).Fits left

theorem fits_setAll (set : setAll params old = .ok new) (shallow : ∀ param ∈ params, Shallow param)
    (fits : (Json.object old).Fits Json.maxDepth) : (Json.object new).Fits Json.maxDepth := by
  refine setAll_invariant (P := fun members => (Json.object members).Fits Json.maxDepth)
    (fun {key raw old} member fits => ?_) set fits
  obtain ⟨left, depth, own⟩ := shallow _ member
  rw [← depth] at fits ⊢
  exact fits_walk (segments key) fits own

theorem legible_walk (path : List String) (legible : (Json.object root).Legible)
    (own : value.Legible) : (Json.object (walk path value root).2).Legible :=
  walk_keeps Json.Legible.insert Json.Legible.opens path legible own

theorem legible_setAll (set : setAll params old = .ok new)
    (each : ∀ param ∈ params, (valueOf param.2).Legible) (legible : (Json.object old).Legible) :
    (Json.object new).Legible := by
  refine setAll_invariant (P := fun members => (Json.object members).Legible)
    (fun {key raw old} member legible => ?_) set legible
  exact legible_walk (segments key) legible (each (key, raw) member)

/-! ### Keys that stay -/

/-- Where a path leads to something it still does after a walk, unless that one ends before. -/
theorem leads_walk {value held : Json} (leads : (Json.object root).at? path = some held)
    (noWay : ¬other <+: path) (given : other ≠ []) (done : (walk other value root).1 = .ok ()) :
    ∃ held, (Json.object (walk other value root).2).at? path = some held := by
  by_cases within : path <+: other
  · obtain ⟨back, rfl⟩ := within
    have own := at?_walk_self (path ++ back) value root given done
    rw [Json.at?_append] at own
    obtain ⟨held, found, -⟩ := Option.bind_eq_some_iff.mp own
    exact ⟨held, found⟩
  · exact ⟨held, (at?_walk_apart ⟨noWay, within⟩ value root).trans leads⟩

theorem leads_setAll (ascending : params.Ascending) (set : setAll params old = .ok new) :
    ∀ param ∈ params, ∃ held, (Json.object new).at? (segments param.1) = some held := by
  induction params using List.reverseRecOn generalizing new with
  | nil => exact nofun
  | append_singleton front last ih =>
    obtain ⟨mid, first, one⟩ := setAll_append.mp set
    obtain ⟨earlier, -, behind⟩ := List.pairwise_append.mp ascending
    obtain ⟨done, ⟨⟩⟩ := setAll_cons.mp one
    have given : segments last.1 ≠ [] := (segments_spec last.1).1
    refine List.forall_mem_append.mpr ⟨fun param member => ?_, List.forall_mem_singleton.mpr ?_⟩
    · obtain ⟨held, leads⟩ := ih earlier first param member
      exact leads_walk leads (segments_not_within (behind param member last List.mem_cons_self))
        given done
    · exact ⟨_, at?_walk_self _ _ mid given done⟩

theorem length_le_of_fits (ascending : params.Ascending) (set : setAll params old = .ok new)
    (fits : (Json.object new).Fits Json.maxDepth) :
    ∀ param ∈ params, (segments param.1).length ≤ Json.maxDepth := by
  intro param member
  obtain ⟨held, leads⟩ := leads_setAll ascending set param member
  obtain ⟨left, depth, -⟩ := fits.at? leads
  omega

end BuildConfig

/-! ### Reading what was written -/

open JsonFile (Holds Opened Prints)

variable {m : Memory} {path : Path} {members : Json.Members}

def JsonFile.Reads (m : Memory) (path : Path) : Prop := ∃ members, JsonFile.read m path = .ok members

theorem JsonFile.Prints.reads_iff (prints : Prints m path members)
    (ordered : (Json.object members).Ordered) :
    Reads m path ↔ (Json.object members).Fits Json.maxDepth ∧ (Json.object members).Legible := by
  have found : FileStore.read m path = .ok (render members) := by
    change m.read path = _
    rw [Memory.read, prints]
  rw [← parse_render_iff path ordered, Reads]
  simp only [JsonFile.read, found]
  rfl

theorem Manifest.legible_addAll? {old new : Json.Members} {packages : List Manifest.Package}
    (added : Manifest.addAll? old packages = some new) (legible : (Json.object old).Legible) :
    (Json.object new).Legible := by
  refine Manifest.addAll?_invariant (P := fun members => (Json.object members).Legible)
    (fun one legible => ?_) added legible
  obtain ⟨-, rfl⟩ | ⟨table, opens, rfl⟩ := Manifest.add?_cases one
  · exact legible
  · exact legible.insert _ ((legible.opens opens).insert _ (.string _))

/-- When the object that an update of a build configuration has written can be read again. -/
structure BuildConfig.ReadsBack (m : Memory) (s : Step) (old new : Json.Members) : Prop where
  reads : JsonFile.Reads (update s m).after s.path ↔
    (Json.object new).Fits Json.maxDepth ∧ (Json.object new).Legible
  shallow : (∀ param ∈ s.params, Shallow param) → (Json.object new).Fits Json.maxDepth
  /-- A key with too many segments is enough to nest it too deep. -/
  short : s.params.Ascending → (Json.object new).Fits Json.maxDepth →
    ∀ param ∈ s.params, (segments param.1).length ≤ Json.maxDepth
  legible : (Json.object old).Legible → (∀ param ∈ s.params, (valueOf param.2).Legible) →
    (Json.object new).Legible

/-- What an update has written can be read exactly if its numbers can be read again and it is not
nested too deep. A manifest that was read is never nested too deep afterwards; a build
configuration is not if each value stays within that depth where its key puts it. -/
theorem updates_read_back (m : Memory) (s : Step) :
    ((Manifest.update s m).result = .ok () → ∃ old new, Holds m s.path old ∧
        Manifest.addAll? old (s.dependencies.map Manifest.Package.parse) = some new ∧
        (JsonFile.Reads (Manifest.update s m).after s.path ↔ (Json.object new).Legible) ∧
        ((Json.object old).Legible → (Json.object new).Legible)) ∧
      ((BuildConfig.update s m).result = .ok () → ∃ old new, Opened m s.path old ∧
        BuildConfig.setAll s.params old = .ok new ∧ BuildConfig.ReadsBack m s old new) := by
  constructor
  · intro done
    obtain ⟨old, new, holds, added, writable⟩ := Manifest.added_of_update done
    have ordered : (Json.object new).Ordered := (Manifest.addAll?_ok added holds.ordered).1
    have fits : (Json.object new).Fits Json.maxDepth :=
      Manifest.addAll?_invariant Manifest.add?_fits added holds.fits
    have prints := JsonFile.prints_tryPut new writable
    refine ⟨old, new, holds, added, ?_, Manifest.legible_addAll? added⟩
    rw [Manifest.update_of_added holds added writable, prints.reads_iff ordered]
    exact and_iff_right fits
  · intro done
    obtain ⟨old, new, opened, set, writable⟩ := BuildConfig.set_of_update done
    have ordered : (Json.object new).Ordered := BuildConfig.ordered_setAll set opened.ordered
    have prints := JsonFile.prints_tryPut new writable
    refine ⟨old, new, opened, set, ?_, fun shallow => ?_, fun ascending => ?_,
      fun legible each => ?_⟩
    · rw [BuildConfig.update_of_set opened set writable]
      exact prints.reads_iff ordered
    · exact BuildConfig.fits_setAll set shallow opened.fits
    · exact BuildConfig.length_le_of_fits ascending set
    · exact BuildConfig.legible_setAll set each legible

/-! ### As deep as can be read, and one deeper -/

def deepKey (count : Nat) : String := ".".intercalate (List.replicate count "a")

def deepStep (count : Nat) : Step where
  id := ⟨"config-change:tsconfig.json:0"⟩
  kind := .configChange
  path := ⟨"tsconfig.json"⟩
  params := [(deepKey count, "1")]

theorem segments_deepKey {count : Nat} (given : count ≠ 0) :
    BuildConfig.segments (deepKey count) = List.replicate count "a" :=
  BuildConfig.segments_intercalate (by simpa using given) (by simp)

theorem deepStep_sets (count : Nat) :
    ∃ new, BuildConfig.setAll (deepStep count).params [] = .ok new := by
  refine ⟨_, BuildConfig.setAll_cons.mpr ⟨?_, rfl⟩⟩
  cases made : (BuildConfig.assign _ _ []).1 with
  | ok => rfl
  | error segment =>
    exact absurd ((BuildConfig.walk_error_iff ..).mp made) (BuildConfig.not_blocks_empty _ segment)

theorem deepStep_readable :
    (BuildConfig.update (deepStep 127) ({} : Memory)).result = .ok () ∧
      JsonFile.Reads (BuildConfig.update (deepStep 127) ({} : Memory)).after (deepStep 127).path := by
  have opened : Opened ({} : Memory) (deepStep 127).path [] := .inr ⟨rfl, rfl⟩
  obtain ⟨new, set⟩ := deepStep_sets 127
  have done : (BuildConfig.update (deepStep 127) ({} : Memory)).result = .ok () := by
    rw [BuildConfig.update_of_set opened set rfl]
  obtain ⟨old, new', opened', -, back⟩ := (updates_read_back {} (deepStep 127)).2 done
  obtain rfl := opened.unique opened'
  have word : (Json.Number.whole 1).IsWord := ⟨by decide, by decide⟩
  have value : BuildConfig.valueOf "1" = .number (.whole 1) := by
    have text : (Json.number (.whole 1)).pretty = "1" := by decide +kernel
    rw [← text]
    exact BuildConfig.valueOf_pretty (.number _) (.number word) (.number _ _)
  have deep : (BuildConfig.segments (deepKey 127)).length = Json.maxDepth := by
    rw [segments_deepKey (by decide), List.length_replicate]
    rfl
  have flat : (BuildConfig.valueOf "1").Fits 0 := by
    rw [value]
    exact .number _ _
  have shallow : BuildConfig.Shallow (deepKey 127, "1") := ⟨0, (Nat.zero_add _).trans deep, flat⟩
  have legible : (BuildConfig.valueOf "1").Legible := by
    rw [value]
    exact .number word.legible
  refine ⟨done, back.reads.mpr ⟨back.shallow ?_, back.legible ?_ ?_⟩⟩
  · exact List.forall_mem_singleton.mpr shallow
  · exact .object (List.forall_mem_nil _)
  · exact List.forall_mem_singleton.mpr legible

theorem deepStep_unreadable :
    (BuildConfig.update (deepStep 128) ({} : Memory)).result = .ok () ∧
      ¬JsonFile.Reads (BuildConfig.update (deepStep 128) ({} : Memory)).after
        (deepStep 128).path := by
  have opened : Opened ({} : Memory) (deepStep 128).path [] := .inr ⟨rfl, rfl⟩
  have ascending : (deepStep 128).params.Ascending := List.pairwise_singleton _ _
  obtain ⟨new, set⟩ := deepStep_sets 128
  have ordered : (Json.object new).Ordered := BuildConfig.ordered_setAll set opened.ordered
  have prints : Prints (Memory.tryPut {} (deepStep 128).path (some (JsonFile.render new)))
      (deepStep 128).path new := JsonFile.prints_tryPut new rfl
  rw [BuildConfig.update_of_set opened set rfl]
  refine ⟨rfl, fun reads => ?_⟩
  obtain ⟨fits, -⟩ := (prints.reads_iff ordered).mp reads
  have short := BuildConfig.length_le_of_fits ascending set fits _ List.mem_cons_self
  rw [segments_deepKey (by decide), List.length_replicate] at short
  exact absurd short (by decide)

end Uplift
