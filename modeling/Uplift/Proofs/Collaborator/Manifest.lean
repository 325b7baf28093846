import Uplift.Collaborator.Manifest
import Uplift.Proofs.Json.Decoding
import Uplift.Proofs.Run.Calls

/-!
# What an update leaves in a manifest

An update that comes through has written a manifest that lists every package the step needs
(`update_ok`). The manifest still lists them when it is read again, if it can be read
(`lists_of_rendered`).
-/

namespace Uplift.Manifest

open Json (Members Opens)

/-! ### Package names -/

/-- The text declares a package of this name: what stands before the last `@`, unless that is
the first character, and otherwise all of it. -/
def Declares (declared name : String) : Prop :=
  (∃ version, declared = name ++ "@" ++ version ∧ name ≠ "" ∧ '@' ∉ version.toList) ∨
    (declared = name ∧ '@' ∉ declared.toList.tail)

theorem parse_versioned {name version : String} (named : name ≠ "")
    (last : '@' ∉ version.toList) :
    Package.parse (name ++ "@" ++ version) = ⟨name, some version⟩ := by
  have backwards : (name ++ "@" ++ version).toList.reverse =
      version.toList.reverse ++ '@' :: name.toList.reverse := by simp
  have others : ∀ c ∈ version.toList.reverse, (c ≠ '@' : Bool) = true := by
    intro c member
    rw [decide_eq_true_eq]
    rintro rfl
    exact last (List.mem_reverse.mp member)
  rw [Package.parse, backwards, List.takeWhile_append_of_pos others,
    List.dropWhile_append_of_pos others]
  simp [named]

theorem parse_unversioned {declared : String} (unversioned : '@' ∉ declared.toList.tail) :
    Package.parse declared = ⟨declared, none⟩ := by
  rw [Package.parse]
  cases shape : declared.toList with
  | nil => rfl
  | cons c rest =>
    rw [shape, List.tail_cons] at unversioned
    have others : ∀ x ∈ rest.reverse, (x ≠ '@' : Bool) = true := by
      intro x member
      rw [decide_eq_true_eq]
      rintro rfl
      exact unversioned (List.mem_reverse.mp member)
    rw [List.reverse_cons, List.dropWhile_append_of_pos others]
    by_cases atFront : c = '@' <;> simp [atFront]

theorem exists_version {declared : String} (versioned : '@' ∈ declared.toList.tail) :
    ∃ name version, declared = name ++ "@" ++ version ∧ name ≠ "" ∧ '@' ∉ version.toList := by
  obtain ⟨c, rest, shape⟩ : ∃ c rest, declared.toList = c :: rest :=
    List.exists_cons_of_ne_nil fun empty => by simp [empty] at versioned
  rw [shape, List.tail_cons] at versioned
  obtain ⟨version, name, split, last⟩ :=
    List.eq_append_cons_of_mem (List.mem_reverse.mpr versioned)
  refine ⟨String.ofList (c :: name.reverse), String.ofList version.reverse, ?_, ?_, ?_⟩
  · have forwards : rest = name.reverse ++ '@' :: version.reverse := by
      rw [← List.reverse_reverse rest, split]
      simp
    rw [← String.toList_inj, shape, forwards]
    simp
  · simp
  · simpa using last

theorem declares_iff {declared name : String} :
    Declares declared name ↔ (Package.parse declared).name = name := by
  constructor
  · rintro (⟨version, rfl, named, last⟩ | ⟨rfl, unversioned⟩)
    · rw [parse_versioned named last]
    · rw [parse_unversioned unversioned]
  · rintro rfl
    by_cases versioned : '@' ∈ declared.toList.tail
    · obtain ⟨name, version, rfl, named, last⟩ := exists_version versioned
      rw [parse_versioned named last]
      exact .inl ⟨version, rfl, named, last⟩
    · rw [parse_unversioned versioned]
      exact .inr ⟨rfl, versioned⟩

/-! ### Tables -/

def Lists (manifest : Members) (name : String) : Prop :=
  ∃ table ∈ tables, ∃ packages, manifest.get? table = some (.object packages) ∧
    Keyed.has name packages = true

theorem lists_iff {manifest : Members} {name : String} :
    lists manifest name = true ↔ Lists manifest name := by
  unfold lists Lists
  rw [List.any_eq_true]
  refine exists_congr fun table => and_congr_right fun _ => ?_
  cases found : manifest.get? table with
  | none => simp
  | some value => cases value <;> simp [Json.asObject?]

theorem add?_cases {manifest manifest' : Members} {p : Package}
    (added : add? manifest p = some manifest') :
    (Lists manifest p.name ∧ manifest' = manifest) ∨
      ∃ packages, Opens manifest mainTable packages ∧
        manifest' = Keyed.insert mainTable
          (.object (Keyed.insert p.name (.string p.range) packages)) manifest := by
  rw [add?] at added
  split at added
  case isTrue listed =>
    cases added
    exact .inl ⟨lists_iff.mp listed, rfl⟩
  case isFalse =>
    split at added
    case h_1 packages held =>
      cases added
      refine .inr ⟨packages, ?_, rfl⟩
      unfold Opens
      cases found : manifest.get? mainTable with
      | none =>
        rw [found] at held
        cases held
        exact .inr ⟨rfl, rfl⟩
      | some value =>
        rw [found] at held
        exact .inl (congrArg some held)
    case h_2 => cases added

theorem add?_lists {manifest manifest' : Members} {p : Package}
    (added : add? manifest p = some manifest') :
    Lists manifest' p.name ∧ ∀ name, Lists manifest name → Lists manifest' name := by
  obtain ⟨listed, rfl⟩ | ⟨packages, held, rfl⟩ := add?_cases added
  · exact ⟨listed, fun _ => id⟩
  · have own := Keyed.get?_insert_self mainTable
      (.object (Keyed.insert p.name (.string p.range) packages)) manifest
    refine ⟨⟨mainTable, List.mem_cons_self, _, own, Keyed.has_insert (.inr rfl)⟩, ?_⟩
    rintro name ⟨table, among, listing, found, has⟩
    by_cases main : table = mainTable
    · rw [main] at found
      rcases held with held | ⟨missing, -⟩
      · obtain rfl : packages = listing := Json.object.inj (Option.some.inj (held.symm.trans found))
        exact ⟨mainTable, List.mem_cons_self, _, own, Keyed.has_insert (.inl has)⟩
      · rw [missing] at found
        cases found
    · exact ⟨table, among, listing, (Keyed.get?_insert_other main ..).trans found, has⟩

theorem add?_ordered {manifest manifest' : Members} {p : Package}
    (added : add? manifest p = some manifest') (ordered : (Json.object manifest).Ordered) :
    (Json.object manifest').Ordered := by
  obtain ⟨-, rfl⟩ | ⟨packages, held, rfl⟩ := add?_cases added
  · exact ordered
  · exact ordered.insert _ ((ordered.opens held).insert _ (.string _))

theorem addAll?_cons {manifest manifest' : Members} {p : Package} {packages : List Package} :
    addAll? manifest (p :: packages) = some manifest' ↔
      ∃ next, add? manifest p = some next ∧ addAll? next packages = some manifest' := by
  rw [addAll?, List.foldlM_cons, Option.bind_eq_bind, Option.bind_eq_some_iff]
  rfl

theorem addAll?_ok {manifest manifest' : Members} {packages : List Package}
    (added : addAll? manifest packages = some manifest')
    (ordered : (Json.object manifest).Ordered) :
    (Json.object manifest').Ordered ∧ (∀ p ∈ packages, Lists manifest' p.name) ∧
      ∀ name, Lists manifest name → Lists manifest' name := by
  induction packages generalizing manifest with
  | nil =>
    cases added
    exact ⟨ordered, nofun, fun _ => id⟩
  | cons p rest ih =>
    obtain ⟨next, one, others⟩ := addAll?_cons.mp added
    obtain ⟨listed, kept⟩ := add?_lists one
    obtain ⟨ordered, all, kept'⟩ := ih others (add?_ordered one ordered)
    refine ⟨ordered, List.forall_mem_cons.mpr ⟨kept' _ listed, all⟩, fun name before => ?_⟩
    exact kept' name (kept name before)

/-! ### Reading a manifest again -/

theorem get?_of_alike {members members' : Members}
    (keys : members'.map (·.1) = members.map (·.1))
    (each : List.Forall₂ Json.Alike (members.map (·.2)) (members'.map (·.2))) {key : String}
    {value : Json} (held : members.get? key = some value) :
    ∃ value', members'.get? key = some value' ∧ value.Alike value' := by
  induction members generalizing members' with
  | nil => cases held
  | cons pair rest ih =>
    cases members' with
    | nil => cases keys
    | cons pair' rest' =>
      rw [List.map_cons, List.map_cons, List.cons.injEq] at keys
      rw [List.map_cons, List.map_cons, List.forall₂_cons] at each
      rw [Keyed.get?] at held ⊢
      rw [keys.1]
      by_cases own : pair.1 = key
      · rw [if_pos own] at held ⊢
        cases held
        exact ⟨pair'.2, rfl, each.1⟩
      · rw [if_neg own] at held ⊢
        exact ih keys.2 each.2 held

theorem Lists.of_alike {manifest manifest' : Members} {name : String}
    (listed : Lists manifest name)
    (alike : (Json.object manifest).Alike (.object manifest')) : Lists manifest' name := by
  obtain ⟨table, among, packages, held, has⟩ := listed
  cases alike with
  | object keys each =>
    obtain ⟨value, found, alike⟩ := get?_of_alike keys each held
    cases alike with
    | object keys each =>
      refine ⟨table, among, _, found, ?_⟩
      obtain ⟨version, held⟩ := Option.isSome_iff_exists.mp has
      obtain ⟨version', found, -⟩ := get?_of_alike keys each held
      exact Option.isSome_iff_exists.mpr ⟨version', found⟩

/-- A manifest that was written lists the same packages when it is read, if it reads at all. -/
theorem lists_of_rendered {manifest : Members} (ordered : (Json.object manifest).Ordered)
    {value : Json} (read : Json.parse? (JsonFile.render manifest) = .ok value) :
    ∃ members, value = .object members ∧ ∀ name, Lists manifest name → Lists members name := by
  have alike := JsonFile.alike_of_rendered ordered read
  cases alike with
  | @object _ members keys each =>
    exact ⟨members, rfl, fun name listed => listed.of_alike (.object keys each)⟩

/-! ### The update -/

/-- An update that comes through has read a manifest, added what is missing and written it. -/
theorem update_written {σ : Type} [FileStore σ] {s : Step} {store : σ}
    (done : (update s store).result = .ok ()) :
    ∃ manifest manifest', JsonFile.read store s.path = .ok manifest ∧
      addAll? manifest (s.dependencies.map Package.parse) = some manifest' ∧
      FileStore.put store s.path (some (JsonFile.render manifest')) =
        .ok (update s store).after := by
  obtain ⟨manifest, read, written⟩ := bind_ok (Call.change_ok done)
  split at written
  case h_2 => cases written
  case h_1 manifest' added => exact ⟨manifest, manifest', read, added, Call.ofFile_ok written⟩

theorem update_ok {σ : Type} [FileStore σ] {s : Step} {store : σ}
    (done : (update s store).result = .ok ()) :
    ∃ manifest, (Json.object manifest).Ordered ∧
      (∀ declared ∈ s.dependencies, Lists manifest (Package.parse declared).name) ∧
      FileStore.put store s.path (some (JsonFile.render manifest)) =
        .ok (update s store).after := by
  obtain ⟨manifest, manifest', read, added, written⟩ := update_written done
  obtain ⟨ordered, listed, -⟩ := addAll?_ok added (JsonFile.ordered_of_read read)
  exact ⟨manifest', ordered, fun declared member => listed _ (List.mem_map_of_mem member), written⟩

end Uplift.Manifest
