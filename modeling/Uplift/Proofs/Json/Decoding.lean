import Mathlib.Data.List.Forall2
import Uplift.Collaborator.Document
import Uplift.Proofs.Except
import Uplift.Proofs.Json.Reading
import Uplift.Proofs.Keyed

/-!
# Reading back what was printed

A value that was read keeps the members of every object in ascending order of their keys
(`ordered_of_parse`). What such a value is printed as reads as a value like it, unless it does
not read at all (`alike_of_printed`): strings and keys are the same, and so are the numbers
that fit a word.
-/

namespace Uplift

namespace Json

inductive Ordered : Json → Prop
  | null : Ordered null
  | bool (b : Bool) : Ordered (bool b)
  | number (n : Number) : Ordered (number n)
  | string (s : String) : Ordered (string s)
  | array {items : List Json} (each : ∀ item ∈ items, Ordered item) : Ordered (array items)
  | object {members : Members} (ascending : members.Ascending)
      (each : ∀ pair ∈ members, Ordered pair.2) : Ordered (object members)

theorem Ordered.insert {members : Members} (ordered : (Json.object members).Ordered)
    (key : String) {value : Json} (own : value.Ordered) :
    (Json.object (Keyed.insert key value members)).Ordered := by
  cases ordered with
  | object ascending each =>
    refine .object (Keyed.ascending_insert ascending key value) fun pair member => ?_
    rcases Keyed.mem_insert member with rfl | among
    · exact own
    · exact each pair among

theorem Ordered.get? {members : Members} (ordered : (Json.object members).Ordered)
    {key : String} {value : Json} (held : members.get? key = some value) : value.Ordered := by
  cases ordered with
  | object ascending each => exact each _ (Keyed.mem_of_get? held)

def Opens (members : Members) (key : String) (inner : Members) : Prop :=
  members.get? key = some (.object inner) ∨ members.get? key = none ∧ inner = []

theorem opens_or_other (members : Members) (key : String) :
    (∃ inner, Opens members key inner) ∨
      ∃ other, members.get? key = some other ∧ other.asObject? = none := by
  cases held : members.get? key with
  | none => exact .inl ⟨[], .inr ⟨held, rfl⟩⟩
  | some value =>
    cases value with
    | object inner => exact .inl ⟨inner, .inl held⟩
    | _ => exact .inr ⟨_, rfl, rfl⟩

theorem Ordered.opens {members inner : Members} (ordered : (Json.object members).Ordered)
    {key : String} (opens : Opens members key inner) : (Json.object inner).Ordered := by
  rcases opens with held | ⟨-, rfl⟩
  · exact ordered.get? held
  · exact .object .nil nofun

/-- The same value, but for numbers that fit no word. -/
inductive Alike : Json → Json → Prop
  | null : Alike null null
  | bool (b : Bool) : Alike (bool b) (bool b)
  | number {n m : Number} (same : n.IsWord → m = n) : Alike (number n) (number m)
  | nothing {n : Number} (other : ¬n.IsWord) : Alike (number n) null
  | string (s : String) : Alike (string s) (string s)
  | array {items items' : List Json} (each : List.Forall₂ Alike items items') :
      Alike (array items) (array items')
  | object {members members' : Members}
      (keys : members'.map (·.1) = members.map (·.1))
      (each : List.Forall₂ Alike (members.map (·.2)) (members'.map (·.2))) :
      Alike (object members) (object members')

/-! ### What is read is ordered -/

mutual

theorem ordered_of_value {d : Document} {start depth : Nat} {j : Json}
    (value : d.value start depth = .ok j) : j.Ordered := by
  match d, depth with
  | .null, _ => cases value; exact .null
  | .bool b, _ => cases value; exact .bool b
  | .number (.ok n), _ => cases value; exact .number n
  | .string (.ok s), _ => cases value; exact .string s
  | .array items stop, depth + 1 =>
    rw [Document.value] at value
    obtain ⟨read, values, ends⟩ := bind_ok value
    obtain ⟨-, -, same⟩ := bind_ok ends
    cases same
    exact .array (ordered_of_values values)
  | .object _ members stop, depth + 1 =>
    rw [Document.value] at value
    obtain ⟨read, entries, ends⟩ := bind_ok value
    obtain ⟨-, -, same⟩ := bind_ok ends
    cases same
    exact ordered_of_members entries (.object .nil nofun)

theorem ordered_of_values {placed : List (Nat × Document)} {depth : Nat} {items : List Json}
    (read : Document.values depth placed = .ok items) : ∀ item ∈ items, item.Ordered := by
  match placed with
  | [] =>
    cases read
    exact nofun
  | (start, d) :: rest =>
    rw [Document.values] at read
    obtain ⟨v, value, others⟩ := bind_ok read
    obtain ⟨vs, values, same⟩ := bind_ok others
    cases same
    exact List.forall_mem_cons.mpr ⟨ordered_of_value value, ordered_of_values values⟩

theorem ordered_of_members {placed : List (Except Fault String × Nat × Document)} {depth : Nat}
    {sofar members : Members} (entries : Document.members depth sofar placed = .ok members)
    (ordered : (object sofar).Ordered) : (object members).Ordered := by
  match placed with
  | [] =>
    cases entries
    exact ordered
  | (key, start, d) :: rest =>
    rw [Document.members] at entries
    obtain ⟨key, -, others⟩ := bind_ok entries
    obtain ⟨v, value, entries⟩ := bind_ok others
    exact ordered_of_members entries (ordered.insert key (ordered_of_value value))

end

theorem ordered_of_parse {text : String} {j : Json} (read : parse? text = .ok j) : j.Ordered := by
  rw [parse?] at read
  obtain ⟨value, decoded, ends⟩ := bind_ok read
  split at ends
  · cases ends
    exact ordered_of_value decoded
  · cases ends

/-! ### What is shown reads alike -/

mutual

theorem Shows.alike {j j' : Json} {d : Document} (shown : Shows j d) (ordered : j.Ordered)
    {start depth : Nat} (value : d.value start depth = .ok j') : Alike j j' := by
  match shown, depth with
  | .null, _ => cases value; exact .null
  | .bool b, _ => cases value; exact .bool b
  | @Shows.number n (.ok m) same _, _ =>
    cases value
    exact .number fun word => Except.ok.inj (same word)
  | .nothing other _, _ => cases value; exact .nothing other
  | .string s, _ => cases value; exact .string s
  | .array shown, depth + 1 =>
    cases ordered with
    | array each =>
      rw [Document.value] at value
      obtain ⟨items, read, ends⟩ := bind_ok value
      obtain ⟨-, -, same⟩ := bind_ok ends
      cases same
      exact .array (shown.alike each read)
  | .object shown, depth + 1 =>
    cases ordered with
    | object ascending each =>
      rw [Document.value] at value
      obtain ⟨members, read, ends⟩ := bind_ok value
      obtain ⟨-, -, same⟩ := bind_ok ends
      cases same
      obtain ⟨members', rfl, keys, alike⟩ := shown.alike ascending each
        (List.forall_mem_nil _) read
      exact .object keys alike

theorem ShowsItems.alike {items items' : List Json} {placed : List Placed}
    (shown : ShowsItems items placed) (ordered : ∀ item ∈ items, item.Ordered) {depth : Nat}
    (read : Document.values depth placed = .ok items') : List.Forall₂ Alike items items' := by
  match shown with
  | .nil => cases read; exact .nil
  | .cons head tail =>
    rw [Document.values] at read
    obtain ⟨v, value, others⟩ := bind_ok read
    obtain ⟨vs, values, same⟩ := bind_ok others
    cases same
    obtain ⟨own, ordered⟩ := List.forall_mem_cons.mp ordered
    exact .cons (head.alike own value) (tail.alike ordered values)

theorem ShowsMembers.alike {members : Members} {placed : List (Except Fault String × Placed)}
    (shown : ShowsMembers members placed) (ascending : members.Ascending)
    (ordered : ∀ pair ∈ members, pair.2.Ordered) {sofar result : Members}
    (behind : ∀ before ∈ sofar, ∀ pair ∈ members, before.1 < pair.1) {depth : Nat}
    (read : Document.members depth sofar placed = .ok result) :
    ∃ members', result = sofar ++ members' ∧ members'.map (·.1) = members.map (·.1) ∧
      List.Forall₂ Alike (members.map (·.2)) (members'.map (·.2)) := by
  match shown with
  | .nil =>
    cases read
    exact ⟨[], (List.append_nil _).symm, rfl, .nil⟩
  | @ShowsMembers.cons key v members start d placed head tail =>
    rw [Document.members] at read
    obtain ⟨_, ⟨⟩, others⟩ := bind_ok read
    obtain ⟨v', value, read⟩ := bind_ok others
    obtain ⟨above, ascending⟩ := List.pairwise_cons.mp ascending
    obtain ⟨own, ordered⟩ := List.forall_mem_cons.mp ordered
    have last : Keyed.insert key v' sofar = sofar ++ [(key, v')] :=
      Keyed.insert_behind (fun before among => behind before among _ List.mem_cons_self) v'
    rw [last] at read
    obtain ⟨members', rfl, keys, alike⟩ := tail.alike ascending ordered (by
      intro before among pair member
      rcases List.mem_append.mp among with earlier | new
      · exact behind before earlier pair (List.mem_cons_of_mem _ member)
      · rw [List.mem_singleton.mp new]
        exact above pair member) read
    refine ⟨(key, v') :: members', List.append_assoc .., ?_, .cons (head.alike own value) alike⟩
    exact congrArg (key :: ·) keys

end

/-- What a value is printed as reads as a value like it, if it reads at all. -/
theorem alike_of_printed {j j' : Json} (ordered : j.Ordered) {gap : String}
    (blank : IsBlank gap.toList) (read : parse? (j.pretty ++ gap) = .ok j') : Alike j j' := by
  obtain ⟨start, d, document, shown⟩ := read_pretty j blank
  rw [parse?, document] at read
  obtain ⟨value, decoded, ends⟩ := bind_ok read
  cases ends
  exact shown.alike ordered decoded

end Json

/-! ### Documents in a store -/

namespace JsonFile

variable {members : Json.Members}

theorem ordered_of_parse {path : Path} {content : String}
    (read : parse path content = .ok members) : (Json.object members).Ordered := by
  rw [parse] at read
  split at read
  case h_1 parsed =>
    cases read
    exact Json.ordered_of_parse parsed
  case h_2 => cases read
  case h_3 => cases read

theorem ordered_of_read {σ : Type} [FileStore σ] {store : σ} {path : Path}
    (read : JsonFile.read store path = .ok members) : (Json.object members).Ordered := by
  obtain ⟨content, -, parsed⟩ := bind_ok read
  exact ordered_of_parse parsed

theorem alike_of_rendered {value : Json} (ordered : (Json.object members).Ordered)
    (read : Json.parse? (render members) = .ok value) : (Json.object members).Alike value := by
  have blank : Json.IsBlank "\n".toList := by decide
  exact Json.alike_of_printed ordered blank read

end JsonFile

end Uplift
