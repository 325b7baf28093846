import Uplift.Proofs.Json.Decoding

/-!
# Values that read as themselves

A value that was read is nested no deeper than what can be read (`fits_of_parse`). If its
numbers are whole and fit a word, then what it is printed as reads as that value again
(`parse?_pretty`).
-/

namespace Uplift

namespace Json

inductive InWords : Json → Prop
  | null : InWords null
  | bool (b : Bool) : InWords (bool b)
  | number {n : Number} (word : n.IsWord) : InWords (number n)
  | string (s : String) : InWords (string s)
  | array {items : List Json} (each : ∀ item ∈ items, InWords item) : InWords (array items)
  | object {members : Members} (each : ∀ pair ∈ members, InWords pair.2) :
      InWords (object members)

inductive Fits : Nat → Json → Prop
  | null (depth : Nat) : Fits depth null
  | bool (depth : Nat) (b : Bool) : Fits depth (bool b)
  | number (depth : Nat) (n : Number) : Fits depth (number n)
  | string (depth : Nat) (s : String) : Fits depth (string s)
  | array {depth : Nat} {items : List Json} (each : ∀ item ∈ items, Fits depth item) :
      Fits (depth + 1) (array items)
  | object {depth : Nat} {members : Members} (each : ∀ pair ∈ members, Fits depth pair.2) :
      Fits (depth + 1) (object members)

theorem each_insert {P : Json → Prop} {members : Members} (each : ∀ pair ∈ members, P pair.2)
    (key : String) {value : Json} (own : P value) :
    ∀ pair ∈ Keyed.insert key value members, P pair.2 := by
  intro pair member
  rcases Keyed.mem_insert member with rfl | among
  · exact own
  · exact each pair among

theorem InWords.insert {members : Members} (words : (Json.object members).InWords) (key : String)
    {value : Json} (own : value.InWords) :
    (Json.object (Keyed.insert key value members)).InWords := by
  cases words with
  | object each => exact .object (each_insert each key own)

theorem InWords.get? {members : Members} (words : (Json.object members).InWords) {key : String}
    {value : Json} (held : members.get? key = some value) : value.InWords := by
  cases words with
  | object each => exact each _ (Keyed.mem_of_get? held)

theorem InWords.opens {members inner : Members} (words : (Json.object members).InWords)
    {key : String} (opens : Opens members key inner) : (Json.object inner).InWords := by
  rcases opens with held | ⟨-, rfl⟩
  · exact words.get? held
  · exact .object (List.forall_mem_nil _)

theorem Fits.insert {depth : Nat} {members : Members}
    (fits : Fits (depth + 1) (Json.object members)) (key : String) {value : Json}
    (own : Fits depth value) :
    Fits (depth + 1) (Json.object (Keyed.insert key value members)) := by
  cases fits with
  | object each => exact .object (each_insert each key own)

theorem Fits.get? {depth : Nat} {members : Members} (fits : Fits (depth + 1) (Json.object members))
    {key : String} {value : Json} (held : members.get? key = some value) : Fits depth value := by
  cases fits with
  | object each => exact each _ (Keyed.mem_of_get? held)

theorem Fits.opens {depth : Nat} {members inner : Members}
    (fits : Fits (depth + 1 + 1) (Json.object members)) {key : String}
    (opens : Opens members key inner) : Fits (depth + 1) (Json.object inner) := by
  rcases opens with held | ⟨-, rfl⟩
  · exact fits.get? held
  · exact .object (List.forall_mem_nil _)

/-! ### What is read fits -/

mutual

theorem fits_of_value {d : Document} {start depth : Nat} {j : Json}
    (value : d.value start depth = .ok j) : j.Fits depth := by
  match d, depth with
  | .null, depth => cases value; exact .null depth
  | .bool b, depth => cases value; exact .bool depth b
  | .number (.ok n), depth => cases value; exact .number depth n
  | .string (.ok s), depth => cases value; exact .string depth s
  | .array items stop, depth + 1 =>
    rw [Document.value] at value
    obtain ⟨read, values, ends⟩ := bind_ok value
    obtain ⟨-, -, same⟩ := bind_ok ends
    cases same
    exact .array (fits_of_values values)
  | .object _ members stop, depth + 1 =>
    rw [Document.value] at value
    obtain ⟨read, entries, ends⟩ := bind_ok value
    obtain ⟨-, -, same⟩ := bind_ok ends
    cases same
    exact .object (fits_of_members entries nofun)

theorem fits_of_values {placed : List (Nat × Document)} {depth : Nat} {items : List Json}
    (read : Document.values depth placed = .ok items) : ∀ item ∈ items, item.Fits depth := by
  match placed with
  | [] =>
    cases read
    exact nofun
  | (start, d) :: rest =>
    rw [Document.values] at read
    obtain ⟨v, value, others⟩ := bind_ok read
    obtain ⟨vs, values, same⟩ := bind_ok others
    cases same
    exact List.forall_mem_cons.mpr ⟨fits_of_value value, fits_of_values values⟩

theorem fits_of_members {placed : List (Except Fault String × Nat × Document)} {depth : Nat}
    {sofar members : Members} (entries : Document.members depth sofar placed = .ok members)
    (fits : ∀ pair ∈ sofar, Fits depth pair.2) : ∀ pair ∈ members, Fits depth pair.2 := by
  match placed with
  | [] =>
    cases entries
    exact fits
  | (key, start, d) :: rest =>
    rw [Document.members] at entries
    obtain ⟨key, -, others⟩ := bind_ok entries
    obtain ⟨v, value, entries⟩ := bind_ok others
    exact fits_of_members entries (each_insert fits key (fits_of_value value))

end

theorem fits_of_parse {text : String} {j : Json} (read : parse? text = .ok j) :
    j.Fits maxDepth := by
  rw [parse?] at read
  obtain ⟨value, decoded, ends⟩ := bind_ok read
  split at ends
  · cases ends
    exact fits_of_value decoded
  · cases ends

/-! ### What is shown reads as itself -/

mutual

theorem Shows.value_eq {j : Json} {d : Document} (shown : Shows j d) (ordered : j.Ordered)
    (words : j.InWords) {depth : Nat} (fits : j.Fits depth) (start : Nat) :
    d.value start depth = .ok j := by
  match shown, depth with
  | .null, _ => rfl
  | .bool b, _ => rfl
  | @Shows.number n _ same _, _ =>
    cases words with
    | number word =>
      rw [same word]
      rfl
  | .nothing other _, _ =>
    cases words with
    | number word => exact absurd word other
  | .string s, _ => rfl
  | .array shown, depth + 1 =>
    cases ordered with
    | array ordered =>
    cases words with
    | array words =>
    cases fits with
    | array fits =>
      rw [Document.value, shown.values_eq ordered words fits]
      rfl
  | .object shown, depth + 1 =>
    cases ordered with
    | object ascending ordered =>
    cases words with
    | object words =>
    cases fits with
    | object fits =>
      rw [Document.value, shown.members_eq ascending ordered words fits [] nofun]
      rfl

theorem ShowsItems.values_eq {items : List Json} {placed : List Placed}
    (shown : ShowsItems items placed) (ordered : ∀ item ∈ items, item.Ordered)
    (words : ∀ item ∈ items, item.InWords) {depth : Nat}
    (fits : ∀ item ∈ items, item.Fits depth) : Document.values depth placed = .ok items := by
  match shown with
  | .nil => rfl
  | .cons head tail =>
    rw [List.forall_mem_cons] at ordered words fits
    rw [Document.values, head.value_eq ordered.1 words.1 fits.1,
      tail.values_eq ordered.2 words.2 fits.2]
    rfl

theorem ShowsMembers.members_eq {members : Members}
    {placed : List (Except Fault String × Placed)} (shown : ShowsMembers members placed)
    (ascending : members.Ascending) (ordered : ∀ pair ∈ members, pair.2.Ordered)
    (words : ∀ pair ∈ members, pair.2.InWords) {depth : Nat}
    (fits : ∀ pair ∈ members, pair.2.Fits depth) (sofar : Members)
    (behind : ∀ before ∈ sofar, ∀ pair ∈ members, before.1 < pair.1) :
    Document.members depth sofar placed = .ok (sofar ++ members) := by
  match shown with
  | .nil =>
    rw [List.append_nil]
    rfl
  | @ShowsMembers.cons key v members start d placed head tail =>
    rw [List.forall_mem_cons] at ordered words fits
    obtain ⟨above, ascending⟩ := List.pairwise_cons.mp ascending
    have last : Keyed.insert key v sofar = sofar ++ [(key, v)] :=
      Keyed.insert_behind (fun before among => behind before among _ List.mem_cons_self) v
    have others := tail.members_eq ascending ordered.2 words.2 fits.2 (sofar ++ [(key, v)]) (by
      intro before among pair member
      rcases List.mem_append.mp among with earlier | new
      · exact behind before earlier pair (List.mem_cons_of_mem _ member)
      · rw [List.mem_singleton.mp new]
        exact above pair member)
    rw [List.append_assoc] at others
    rw [Document.members]
    change (d.value start depth >>= fun v => _) = _
    rw [head.value_eq ordered.1 words.1 fits.1 start]
    change Document.members depth (Keyed.insert key v sofar) placed = _
    rw [last]
    exact others

end

/-- Whatever blanks follow, a printed value reads as itself. -/
theorem parse?_pretty {j : Json} (ordered : j.Ordered) (words : j.InWords)
    (fits : j.Fits maxDepth) {gap : String} (blank : IsBlank gap.toList) :
    parse? (j.pretty ++ gap) = .ok j := by
  obtain ⟨start, d, document, shown⟩ := read_pretty j blank
  rw [parse?, document]
  dsimp only
  rw [shown.value_eq ordered words fits]
  rfl

end Json

theorem JsonFile.parse?_render {members : Json.Members}
    (ordered : (Json.object members).Ordered) (words : (Json.object members).InWords)
    (fits : (Json.object members).Fits Json.maxDepth) :
    Json.parse? (render members) = .ok (.object members) := by
  have blank : Json.IsBlank "\n".toList := by decide
  exact Json.parse?_pretty ordered words fits blank

end Uplift
