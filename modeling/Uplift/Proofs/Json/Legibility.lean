import Uplift.Proofs.Json.RoundTrip

/-!
# Values that can be read at all

A printed value can be read exactly if it is nested no deeper than what can be read and each of
its numbers can be read (`parse?_pretty_iff`). Strings and keys never stand in the way.
-/

namespace Uplift

namespace Json

inductive Legible : Json → Prop
  | null : Legible null
  | bool (b : Bool) : Legible (bool b)
  | number {n : Number} (own : n.Legible) : Legible (number n)
  | string (s : String) : Legible (string s)
  | array {items : List Json} (each : ∀ item ∈ items, Legible item) : Legible (array items)
  | object {members : Members} (each : ∀ pair ∈ members, Legible pair.2) :
      Legible (object members)

theorem legible_number {n : Number} : (number n).Legible ↔ n.Legible :=
  ⟨fun | .number own => own, .number⟩

theorem legible_array {items : List Json} :
    (array items).Legible ↔ ∀ item ∈ items, item.Legible :=
  ⟨fun | .array each => each, .array⟩

theorem legible_object {members : Members} :
    (object members).Legible ↔ ∀ pair ∈ members, pair.2.Legible :=
  ⟨fun | .object each => each, .object⟩

theorem Legible.insert {members : Members} (legible : (Json.object members).Legible) (key : String)
    {value : Json} (own : value.Legible) :
    (Json.object (Keyed.insert key value members)).Legible :=
  .object (each_insert (legible_object.mp legible) key own)

theorem Legible.opens {members inner : Members} (legible : (Json.object members).Legible)
    {key : String} (opens : Opens members key inner) : (Json.object inner).Legible := by
  rcases opens with held | ⟨-, rfl⟩
  · exact legible_object.mp legible _ (Keyed.mem_of_get? held)
  · exact .object (List.forall_mem_nil _)

theorem fits_array {items : List Json} {depth : Nat} :
    (array items).Fits (depth + 1) ↔ ∀ item ∈ items, item.Fits depth :=
  ⟨fun | .array each => each, .array⟩

theorem fits_object {members : Members} {depth : Nat} :
    (object members).Fits (depth + 1) ↔ ∀ pair ∈ members, pair.2.Fits depth :=
  ⟨fun | .object each => each, .object⟩

theorem not_fits_array (items : List Json) : ¬(array items).Fits 0 := nofun

theorem not_fits_object (members : Members) : ¬(object members).Fits 0 := nofun

/-! ### What is shown can be read -/

mutual

theorem Shows.value_iff {j : Json} {d : Document} (shown : Shows j d) (start depth : Nat) :
    (∃ v, d.value start depth = .ok v) ↔ j.Fits depth ∧ j.Legible := by
  match shown, depth with
  | .null, depth => exact iff_of_true ⟨_, rfl⟩ ⟨.null depth, .null⟩
  | .bool b, depth => exact iff_of_true ⟨_, rfl⟩ ⟨.bool depth b, .bool b⟩
  | .string s, depth => exact iff_of_true ⟨_, rfl⟩ ⟨.string depth s, .string s⟩
  | .nothing _ legible, depth => exact iff_of_true ⟨_, rfl⟩ ⟨.number depth _, .number legible⟩
  | @Shows.number n value _ legible, depth =>
    rw [legible_number, ← legible, and_iff_right (Fits.number depth n), Document.value]
    cases value with
    | ok m => exact iff_of_true ⟨_, rfl⟩ ⟨m, rfl⟩
    | error fault => exact iff_of_false nofun nofun
  | .array shown, 0 => exact iff_of_false nofun fun fits => not_fits_array _ fits.1
  | .object shown, 0 => exact iff_of_false nofun fun fits => not_fits_object _ fits.1
  | @Shows.array items placed shown, depth + 1 =>
    rw [fits_array, legible_array, ← forall₂_and, ← shown.values_iff depth, Document.value]
    cases Document.values depth placed with
    | ok items => exact iff_of_true ⟨_, rfl⟩ ⟨items, rfl⟩
    | error fault => exact iff_of_false nofun nofun
  | @Shows.object members body placed shown, depth + 1 =>
    rw [fits_object, legible_object, ← forall₂_and, ← shown.members_iff depth [], Document.value]
    cases Document.members depth [] placed with
    | ok members => exact iff_of_true ⟨_, rfl⟩ ⟨members, rfl⟩
    | error fault => exact iff_of_false nofun nofun

theorem ShowsItems.values_iff {items : List Json} {placed : List Placed}
    (shown : ShowsItems items placed) (depth : Nat) :
    (∃ values, Document.values depth placed = .ok values) ↔
      ∀ item ∈ items, item.Fits depth ∧ item.Legible := by
  match shown with
  | .nil => exact iff_of_true ⟨[], rfl⟩ nofun
  | @ShowsItems.cons item items start d placed head tail =>
    rw [List.forall_mem_cons, ← head.value_iff start depth, ← tail.values_iff depth,
      Document.values]
    cases d.value start depth with
    | ok value =>
      rw [and_iff_right ⟨value, rfl⟩]
      cases Document.values depth placed with
      | ok values => exact iff_of_true ⟨_, rfl⟩ ⟨values, rfl⟩
      | error fault => exact iff_of_false nofun nofun
    | error fault => exact iff_of_false nofun fun both => nomatch both.1

theorem ShowsMembers.members_iff {members : Members}
    {placed : List (Except Fault String × Placed)} (shown : ShowsMembers members placed)
    (depth : Nat) (sofar : Members) :
    (∃ read, Document.members depth sofar placed = .ok read) ↔
      ∀ pair ∈ members, pair.2.Fits depth ∧ pair.2.Legible := by
  match shown with
  | .nil => exact iff_of_true ⟨sofar, rfl⟩ nofun
  | @ShowsMembers.cons key value members start d placed head tail =>
    rw [List.forall_mem_cons, ← head.value_iff start depth, Document.members]
    cases d.value start depth with
    | ok value =>
      rw [and_iff_right ⟨value, rfl⟩]
      exact tail.members_iff depth (Keyed.insert key value sofar)
    | error fault => exact iff_of_false nofun fun both => nomatch both.1

end

/-- Whatever blanks follow, a printed value can be read if it is not too deep and its numbers can
be read, and only then. -/
theorem parse?_pretty_iff (j : Json) {gap : String} (blank : IsBlank gap.toList) :
    (∃ value, parse? (j.pretty ++ gap) = .ok value) ↔ j.Fits maxDepth ∧ j.Legible := by
  obtain ⟨start, d, document, shown⟩ := read_pretty j blank
  rw [← shown.value_iff start maxDepth, parse?, document]
  cases d.value start maxDepth with
  | ok value => exact iff_of_true ⟨value, rfl⟩ ⟨value, rfl⟩
  | error fault => exact iff_of_false (by rintro ⟨_, ⟨⟩⟩) (by rintro ⟨_, ⟨⟩⟩)

/-! ### Numbers that fit a word -/

theorem Number.IsWord.legible {n : Number} (word : n.IsWord) : n.Legible := by
  have blank : IsBlank "".toList := isBlank_nil
  obtain ⟨value, read⟩ : ∃ value, parse? ((number n).pretty ++ "") = .ok value :=
    ⟨number n, parse?_pretty (.number n) (.number word) (.number _ n) blank⟩
  rw [String.append_empty] at read
  exact ⟨value, read⟩

theorem InWords.legible {j : Json} (words : j.InWords) : j.Legible := by
  induction words with
  | null => exact .null
  | bool b => exact .bool b
  | number word => exact .number word.legible
  | string s => exact .string s
  | array _ ih => exact .array ih
  | object _ ih => exact .object ih

end Json

namespace JsonFile

variable {members : Json.Members}

theorem parse_render_iff (path : Path) (ordered : (Json.object members).Ordered) :
    (∃ read, parse path (render members) = .ok read) ↔
      (Json.object members).Fits Json.maxDepth ∧ (Json.object members).Legible := by
  have blank : Json.IsBlank "\n".toList := by decide
  rw [← Json.parse?_pretty_iff (.object members) blank]
  change _ ↔ ∃ value, Json.parse? (render members) = .ok value
  constructor
  · rintro ⟨read, parsed⟩
    rw [parse] at parsed
    split at parsed
    case h_1 value => exact ⟨_, value⟩
    case h_2 => cases parsed
    case h_3 => cases parsed
  · rintro ⟨value, parsed⟩
    cases alike_of_rendered ordered parsed with
    | object keys each => exact ⟨_, by rw [parse, parsed]⟩

end JsonFile

end Uplift
