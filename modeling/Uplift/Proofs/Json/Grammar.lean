import Uplift.Proofs.Json.Scanning

/-!
# The grammar of documents

`Spelled` is the grammar: any blanks between the parts of a document, and any spelling of its
strings and numerals. A `Tree` is what a text spells. `IsText` is a whole text of the grammar.
-/

namespace Uplift.Json

/-- What a text spells: members in their order with repeated keys, numbers by their digits, and
no string where half of a surrogate pair stands alone. -/
inductive Tree where
  | null
  | bool (b : Bool)
  | number (n : Numeral)
  | string (s : Option String)
  | array (items : List Tree)
  | object (members : List (Option String × Tree))

def comma (first : Bool) : List Char := if first then [] else [',']

mutual

inductive Spelled : Tree → List Char → Prop
  | null : Spelled .null ['n', 'u', 'l', 'l']
  | bool (b : Bool) : Spelled (.bool b) (boolText b)
  | number {n : Numeral} {text : List Char} (formed : n.WellFormed) (spelled : n.Spelled text) :
      Spelled (.number n) text
  | string (pieces : List Piece) : Spelled (.string (Piece.string? pieces)) (quoted pieces)
  | array {items : List Tree} {text : List Char} (spelled : SpelledItems true items text) :
      Spelled (.array items) ('[' :: text)
  | object {members : List (Option String × Tree)} {text : List Char}
      (spelled : SpelledMembers true members text) : Spelled (.object members) ('\x7b' :: text)

/-- The text is a spelling of the items, the first of them or those behind a comma, with the
closing bracket. -/
inductive SpelledItems : Bool → List Tree → List Char → Prop
  | nil (first : Bool) {gap : List Char} (blank : IsBlank gap) :
      SpelledItems first [] (gap ++ [']'])
  | cons (first : Bool) {lead gap text rest : List Char} {item : Tree} {items : List Tree}
      (led : IsBlank lead) (blank : IsBlank gap) (head : Spelled item text)
      (tail : SpelledItems false items rest) :
      SpelledItems first (item :: items) (lead ++ (comma first ++ (gap ++ (text ++ rest))))

inductive SpelledMembers : Bool → List (Option String × Tree) → List Char → Prop
  | nil (first : Bool) {gap : List Char} (blank : IsBlank gap) :
      SpelledMembers first [] (gap ++ ['\x7d'])
  | cons (first : Bool) {lead gap before space text rest : List Char} {value : Tree}
      {members : List (Option String × Tree)} (led : IsBlank lead) (blank : IsBlank gap)
      (key : List Piece) (parted : IsBlank before) (spaced : IsBlank space)
      (head : Spelled value text) (tail : SpelledMembers false members rest) :
      SpelledMembers first ((Piece.string? key, value) :: members)
        (lead ++ (comma first ++ (gap ++ (quoted key ++
          (before ++ ':' :: (space ++ (text ++ rest)))))))

end

def IsText (tree : Tree) (text : String) : Prop :=
  ∃ lead body gap, IsBlank lead ∧ Spelled tree body ∧ IsBlank gap ∧
    text = String.ofList (lead ++ (body ++ gap))

/-! ### Where spellings start and end -/

theorem Numeral.Spelled.starts {n : Numeral} (formed : n.WellFormed) {text : List Char}
    (spelled : n.Spelled text) : ∃ c rest, text = c :: rest ∧ (c = '-' ∨ c.isDigit = true) := by
  obtain ⟨power, -, rfl⟩ := spelled
  obtain ⟨given, all⟩ := formed.whole
  obtain ⟨d, digits, shape⟩ := List.exists_cons_of_ne_nil given
  cases n.negative with
  | true => exact ⟨'-', _, rfl, .inl rfl⟩
  | false =>
    rw [shape] at all ⊢
    exact ⟨d, _, rfl, .inr (all d List.mem_cons_self)⟩

theorem Spelled.starts {tree : Tree} {text : List Char} (spelled : Spelled tree text) :
    ∃ c rest, text = c :: rest ∧ Cursor.isSpace c = false ∧ c ≠ ']' := by
  cases spelled with
  | null => exact ⟨'n', _, rfl, rfl, by decide⟩
  | bool b =>
    cases b with
    | true => exact ⟨'t', _, rfl, rfl, by decide⟩
    | false => exact ⟨'f', _, rfl, rfl, by decide⟩
  | number formed spelled =>
    obtain ⟨c, rest, rfl, rfl | digit⟩ := spelled.starts formed
    · exact ⟨'-', rest, rfl, rfl, by decide⟩
    · exact ⟨c, rest, rfl, isSpace_of_isDigit digit, ne_of_isDigit digit rfl⟩
  | string pieces => exact ⟨'"', _, rfl, rfl, by decide⟩
  | array => exact ⟨'[', _, rfl, rfl, by decide⟩
  | object => exact ⟨'\x7b', _, rfl, rfl, by decide⟩

theorem Spelled.length_pos {tree : Tree} {text : List Char} (spelled : Spelled tree text) :
    0 < text.length := by
  obtain ⟨c, rest, rfl, -⟩ := spelled.starts
  exact Nat.succ_pos _

theorem SpelledItems.length_pos {first : Bool} {items : List Tree} {text : List Char}
    (spelled : SpelledItems first items text) : 0 < text.length := by
  cases spelled with
  | nil => simp
  | cons first led blank head tail =>
    have := head.length_pos
    simp only [List.length_append]
    omega

theorem SpelledMembers.length_pos {first : Bool} {members : List (Option String × Tree)}
    {text : List Char} (spelled : SpelledMembers first members text) : 0 < text.length := by
  cases spelled with
  | nil => simp
  | cons first led blank key parted spaced head tail =>
    have := head.length_pos
    simp only [List.length_append, List.length_cons]
    omega

theorem endsNumber_cons {c : Char} (rest : List Char)
    (other : c.isDigit = false ∧ c ≠ '.' ∧ c ≠ 'e' ∧ c ≠ 'E') : EndsNumber (c :: rest) := by
  rintro x ⟨⟩
  exact other

theorem endsNumber_blank {gap : List Char} (blank : IsBlank gap) {rest : List Char}
    (ends : EndsNumber rest) : EndsNumber (gap ++ rest) := by
  cases gap with
  | nil => exact ends
  | cons c gap =>
    have space : Cursor.isSpace c = true := blank c List.mem_cons_self
    simp only [Cursor.isSpace, Bool.or_eq_true, decide_eq_true_eq] at space
    refine endsNumber_cons _ ?_
    rcases space with ((rfl | rfl) | rfl) | rfl <;> decide

theorem endsNumber_of_blank {gap : List Char} (blank : IsBlank gap) : EndsNumber gap := by
  rw [← List.append_nil gap]
  exact endsNumber_blank blank nofun

theorem SpelledItems.endsNumber {items : List Tree} {text : List Char}
    (spelled : SpelledItems false items text) (rest : List Char) : EndsNumber (text ++ rest) := by
  cases spelled with
  | nil first blank =>
    rw [List.append_assoc]
    exact endsNumber_blank blank (endsNumber_cons _ (by decide))
  | cons first led blank head tail =>
    rw [List.append_assoc]
    exact endsNumber_blank led (endsNumber_cons _ (by decide))

theorem SpelledMembers.endsNumber {members : List (Option String × Tree)} {text : List Char}
    (spelled : SpelledMembers false members text) (rest : List Char) :
    EndsNumber (text ++ rest) := by
  cases spelled with
  | nil first blank =>
    rw [List.append_assoc]
    exact endsNumber_blank blank (endsNumber_cons _ (by decide))
  | cons first led blank key parted spaced head tail =>
    rw [List.append_assoc]
    exact endsNumber_blank led (endsNumber_cons _ (by decide))

theorem isBlank_nil : IsBlank [] := by decide

end Uplift.Json
