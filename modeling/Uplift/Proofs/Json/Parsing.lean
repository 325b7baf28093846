import Uplift.Json.Decode
import Uplift.Proofs.Except
import Uplift.Proofs.Json.Grammar

/-!
# Reading what the grammar allows

Every text of the grammar is read as a document that depicts what it spells (`read_spelled`),
with nothing left behind it.
-/

namespace Uplift.Json

/-! ### Documents that depict a tree -/

/-- What a label needs of the text behind an opening brace: it starts with a key, and what
follows the null of its first member is the end exactly if that member is the only one. -/
structure LabelRoom (body : Cursor) (placed : List (Except Fault String × Placed)) : Prop where
  opens : placed ≠ [] → body.skipSpace.rest.head? = some '"'
  closes : ∀ {key start others}, placed = (.ok key, start, .null) :: others →
    (∀ c ∈ key.toList, c.utf8Size = 1) →
    (Decoder.closeLabel ⟨body.rest.drop (start + 4 - body.consumed), start + 4⟩ = .ok () ↔
      others = [])

mutual

/-- The document shows what the tree says. A string without a text shows as a fault. -/
inductive Depicts : Tree → Document → Prop
  | null : Depicts .null .null
  | bool (b : Bool) : Depicts (.bool b) (.bool b)
  | number (n : Numeral) (exponentAt stop : Nat) :
      Depicts (.number n) (.number (n.value exponentAt stop))
  | string {s : Option String} {value : Except Fault String} (same : value.toOption = s) :
      Depicts (.string s) (.string value)
  | array {items : List Tree} {placed : List Placed} (shown : DepictsItems items placed) :
      Depicts (.array items) (.array placed none)
  | object {members : List (Option String × Tree)} {body : Cursor}
      {placed : List (Except Fault String × Placed)} (shown : DepictsMembers members placed)
      (room : LabelRoom body placed) : Depicts (.object members) (.object body placed none)

inductive DepictsItems : List Tree → List Placed → Prop
  | nil : DepictsItems [] []
  | cons {item : Tree} {items : List Tree} {start : Nat} {d : Document} {placed : List Placed}
      (head : Depicts item d) (tail : DepictsItems items placed) :
      DepictsItems (item :: items) ((start, d) :: placed)

inductive DepictsMembers :
    List (Option String × Tree) → List (Except Fault String × Placed) → Prop
  | nil : DepictsMembers [] []
  | cons {name : Option String} {key : Except Fault String} {value : Tree}
      {members : List (Option String × Tree)} {start : Nat} {d : Document}
      {placed : List (Except Fault String × Placed)} (same : key.toOption = name)
      (head : Depicts value d) (tail : DepictsMembers members placed) :
      DepictsMembers ((name, value) :: members) ((key, start, d) :: placed)

end

/-! ### Reading values -/

def ReadAs (tree : Tree) (start : Nat) (rest : List Char) (r : Placed × Option Cursor) : Prop :=
  ∃ d stop, r = ((start, d), some ⟨rest, stop⟩) ∧ Depicts tree d

theorem readValue_blank {blank : List Char} (isBlank : IsBlank blank) (fuel : Nat)
    (text : List Char) (n : Nat) :
    readValue (fuel + 1) ⟨blank ++ text, n⟩ = readValue (fuel + 1) ⟨text, n + blank.length⟩ := by
  rw [readValue, readValue, skipSpace_blank isBlank]

/-! What the first character of a value leads to. -/

theorem readValue_quote (fuel : Nat) (rest : List Char) (n : Nat) :
    readValue (fuel + 1) ⟨'"' :: rest, n⟩ =
      match scanString rest (n + 1) with
      | .closed value after => ((n, .string (value.map String.ofList)), some after)
      | .broken b => ((n, .broken b), none) := rfl

theorem readValue_bracket (fuel : Nat) (rest : List Char) (n : Nat) :
    readValue (fuel + 1) ⟨'[' :: rest, n⟩ =
      let read := readItems fuel true ⟨rest, n + 1⟩
      ((n, .array read.1 read.2.1), read.2.2) := rfl

theorem readValue_brace (fuel : Nat) (rest : List Char) (n : Nat) :
    readValue (fuel + 1) ⟨'\x7b' :: rest, n⟩ =
      let read := readMembers fuel true ⟨rest, n + 1⟩
      ((n, .object ⟨rest, n + 1⟩ read.1 read.2.1), read.2.2) := rfl

theorem readValue_minus (fuel : Nat) (rest : List Char) (n : Nat) :
    readValue (fuel + 1) ⟨'-' :: rest, n⟩ =
      let scanned := scanNumber true ⟨rest, n + 1⟩
      ((n, scanned.1), scanned.2) := rfl

theorem readValue_digit {d : Char} (digit : d.isDigit = true) (fuel : Nat) (rest : List Char)
    (n : Nat) :
    readValue (fuel + 1) ⟨d :: rest, n⟩ =
      let scanned := scanNumber false ⟨d :: rest, n⟩
      ((n, scanned.1), scanned.2) := by
  have other (x : Char) (no : x.isDigit = false) : d ≠ x := ne_of_isDigit digit no
  rw [readValue, skipSpace_solid (isSpace_of_isDigit digit)]
  simp [other 'n' rfl, other 't' rfl, other 'f' rfl, other '-' rfl, digit]

/-! The values without parts. -/

theorem readAs_null (fuel : Nat) (rest : List Char) (n : Nat) :
    ReadAs .null n rest (readValue (fuel + 1) ⟨['n', 'u', 'l', 'l'] ++ rest, n⟩) :=
  ⟨.null, n + 4, rfl, .null⟩

theorem readAs_bool (b : Bool) (fuel : Nat) (rest : List Char) (n : Nat) :
    ReadAs (.bool b) n rest (readValue (fuel + 1) ⟨boolText b ++ rest, n⟩) := by
  cases b with
  | true => exact ⟨.bool true, n + 4, rfl, .bool true⟩
  | false => exact ⟨.bool false, n + 5, rfl, .bool false⟩

theorem scanString_quoted (pieces : List Piece) (rest : List Char) (n : Nat) :
    ∃ value : Except Fault (List Char),
      scanString ((quoted pieces ++ rest).tail) (n + 1) =
        .closed value ⟨rest, n + 1 + Piece.sizes pieces + 1⟩ ∧
      (value.map String.ofList).toOption = Piece.string? pieces := by
  obtain ⟨value, scanned, chars⟩ := scanString_pieces pieces rest (n + 1)
  refine ⟨value, ?_, ?_⟩
  · rw [quoted, List.cons_append, List.tail_cons, List.append_assoc]
    exact scanned
  · rw [toOption_map, chars, Piece.string?]

theorem readAs_string (pieces : List Piece) (fuel : Nat) (rest : List Char) (n : Nat) :
    ReadAs (.string (Piece.string? pieces)) n rest
      (readValue (fuel + 1) ⟨quoted pieces ++ rest, n⟩) := by
  obtain ⟨value, scanned, text⟩ := scanString_quoted pieces rest n
  refine ⟨.string (value.map String.ofList), n + 1 + Piece.sizes pieces + 1, ?_, ?_⟩
  · rw [quoted, List.cons_append, List.tail_cons] at scanned
    rw [quoted, List.cons_append, readValue_quote, scanned]
  · exact .string text

theorem readAs_number {numeral : Numeral} (formed : numeral.WellFormed) {text : List Char}
    (spelled : numeral.Spelled text) {rest : List Char} (ends : EndsNumber rest) (fuel : Nat)
    (n : Nat) : ReadAs (.number numeral) n rest (readValue (fuel + 1) ⟨text ++ rest, n⟩) := by
  obtain ⟨power, powers, rfl⟩ := spelled
  simp only [List.append_assoc]
  cases sign : numeral.negative with
  | true =>
    obtain ⟨exponentAt, stop, scanned⟩ := scanNumber_numeral formed powers ends (n + 1)
    refine ⟨.number (numeral.value exponentAt stop), stop, ?_, .number ..⟩
    rw [if_pos rfl, List.singleton_append, readValue_minus, ← sign, scanned]
  | false =>
    obtain ⟨exponentAt, stop, scanned⟩ := scanNumber_numeral formed powers ends n
    refine ⟨.number (numeral.value exponentAt stop), stop, ?_, .number ..⟩
    obtain ⟨given, all⟩ := formed.whole
    obtain ⟨d, digits, shape⟩ := List.exists_cons_of_ne_nil given
    rw [sign] at scanned
    rw [if_neg Bool.false_ne_true, List.nil_append]
    rw [shape] at all scanned ⊢
    rw [List.cons_append] at scanned ⊢
    rw [readValue_digit (all d List.mem_cons_self), scanned]

/-! ### Items and members -/

theorem readItems_stop {gap : List Char} (blank : IsBlank gap) (fuel : Nat) (first : Bool)
    (rest : List Char) (n : Nat) :
    ∃ stop, readItems (fuel + 1) first ⟨gap ++ ']' :: rest, n⟩ =
      ([], none, some ⟨rest, stop⟩) := by
  refine ⟨n + gap.length + 1, ?_⟩
  rw [readItems, skipSpace_blank blank, skipSpace_solid rfl]
  rfl

theorem readMembers_stop {gap : List Char} (blank : IsBlank gap) (fuel : Nat) (first : Bool)
    (rest : List Char) (n : Nat) :
    ∃ stop, readMembers (fuel + 1) first ⟨gap ++ '\x7d' :: rest, n⟩ =
      ([], none, some ⟨rest, stop⟩) := by
  refine ⟨n + gap.length + 1, ?_⟩
  rw [readMembers, skipSpace_blank blank, skipSpace_solid rfl]
  rfl

theorem readItems_step {lead gap : List Char} (led : IsBlank lead) (blank : IsBlank gap) {c : Char}
    (solid : Cursor.isSpace c = false) (goesOn : c ≠ ']') (fuel : Nat) (first : Bool)
    (text : List Char) (n : Nat) :
    ∃ m, ∀ {d after items stop last}, readValue fuel ⟨c :: text, m⟩ = (d, some after) →
      readItems fuel false after = (items, stop, last) →
      readItems (fuel + 1) first ⟨lead ++ (comma first ++ (gap ++ c :: text)), n⟩ =
        (d :: items, stop, last) := by
  cases first with
  | true =>
    refine ⟨n + lead.length + gap.length, fun value others => ?_⟩
    rw [comma, if_pos rfl, List.nil_append, readItems, skipSpace_blank led, skipSpace_blank blank,
      skipSpace_solid solid]
    simp only [goesOn, if_false, if_true, value, others]
  | false =>
    refine ⟨n + lead.length + 1 + gap.length, fun value others => ?_⟩
    rw [comma, if_neg Bool.false_ne_true, List.singleton_append, readItems, skipSpace_blank led,
      skipSpace_solid rfl]
    simp only [skipSpace_blank blank, skipSpace_solid solid, goesOn, Char.reduceEq, if_false,
      if_true, Bool.false_eq_true, value, others]

def colonEnd (first : Bool) (lead gap : List Char) (key : List Piece) (before : List Char)
    (n : Nat) : Nat :=
  n + lead.length + (comma first).length + gap.length + 1 + Piece.sizes key + 1 +
    before.length + 1

theorem readMembers_step {lead gap before : List Char} (led : IsBlank lead) (blank : IsBlank gap)
    (pieces : List Piece) (parted : IsBlank before) (fuel : Nat) (first : Bool)
    (text : List Char) (n : Nat) :
    ∃ key : Except Fault String, key.toOption = Piece.string? pieces ∧
      ∀ {d after members stop last},
        readValue fuel ⟨text, colonEnd first lead gap pieces before n⟩ = (d, some after) →
        readMembers fuel false after = (members, stop, last) →
        readMembers (fuel + 1) first
          ⟨lead ++ (comma first ++ (gap ++ (quoted pieces ++ (before ++ ':' :: text)))), n⟩ =
          ((key, d) :: members, stop, last) := by
  obtain ⟨key, scanned, same⟩ := scanString_quoted pieces (before ++ ':' :: text)
    (n + lead.length + (comma first).length + gap.length)
  refine ⟨key.map String.ofList, same, fun value others => ?_⟩
  rw [colonEnd] at value
  rw [quoted, List.cons_append, List.tail_cons] at scanned
  rw [quoted, List.cons_append]
  cases first with
  | true =>
    simp only [comma, if_true, List.length_nil, Nat.add_zero] at scanned value
    rw [comma, if_pos rfl, List.nil_append, readMembers, skipSpace_blank led,
      skipSpace_blank blank, skipSpace_solid rfl]
    simp only [Char.reduceEq, if_false, if_true, List.tail_cons, scanned,
      skipSpace_blank parted, skipSpace_solid (c := ':') rfl, ne_eq, not_true_eq_false, value,
      others]
  | false =>
    rw [comma, if_neg Bool.false_ne_true, List.length_singleton] at scanned value
    rw [comma, if_neg Bool.false_ne_true, List.singleton_append, readMembers, skipSpace_blank led,
      skipSpace_solid rfl]
    simp only [skipSpace_blank blank, skipSpace_solid (c := '"') rfl, Char.reduceEq, if_false,
      if_true, Bool.false_eq_true, List.tail_cons, scanned, skipSpace_blank parted,
      skipSpace_solid (c := ':') rfl, ne_eq, not_true_eq_false, value, others]

/-! ### The room of a label -/

theorem closeLabel_iff {members : List (Option String × Tree)} {text : List Char}
    (spelled : SpelledMembers false members text) (rest : List Char) (n : Nat) :
    Decoder.closeLabel ⟨text ++ rest, n⟩ = .ok () ↔ members = [] := by
  unfold Decoder.closeLabel
  cases spelled with
  | nil first blank =>
    rw [List.append_assoc, skipSpace_blank blank, List.singleton_append, skipSpace_solid rfl]
    exact iff_of_true rfl rfl
  | cons first led blank key parted spaced head tail =>
    rw [List.append_assoc, skipSpace_blank led, comma, if_neg Bool.false_ne_true,
      List.singleton_append, List.cons_append, skipSpace_solid rfl]
    exact iff_of_false nofun nofun

/-- What is behind the null of the first member, if its key has single bytes only. -/
theorem drop_firstNull {lead gap : List Char} {key : List Piece} {chars : List Char}
    (given : Piece.chars? key = some chars) (single : ∀ c ∈ chars, c.utf8Size = 1)
    (before space rest : List Char) (n : Nat) :
    (lead ++ (comma true ++ (gap ++ (quoted key ++ (before ++ ':' :: (space ++
        (['n', 'u', 'l', 'l'] ++ rest))))))).drop
      (colonEnd true lead gap key before n + space.length + 4 - n) = rest := by
  have front : lead ++ (comma true ++ (gap ++ (quoted key ++ (before ++ ':' :: (space ++
        (['n', 'u', 'l', 'l'] ++ rest)))))) =
      (lead ++ (gap ++ (quoted key ++ (before ++ ':' :: (space ++ ['n', 'u', 'l', 'l']))))) ++
        rest := by
    simp [comma]
  rw [front]
  refine List.drop_left' ?_
  simp only [List.length_append, List.length_cons, List.length_nil, quoted, colonEnd, comma,
    if_true, sizes_eq given single]
  omega

theorem labelRoom_nil (body : Cursor) : LabelRoom body [] := ⟨fun none => absurd rfl none, nofun⟩

theorem labelRoom_cons {lead gap before space text rest : List Char} {pieces : List Piece}
    {value : Tree} {members : List (Option String × Tree)} (led : IsBlank lead)
    (blank : IsBlank gap) (head : Spelled value text) (tail : SpelledMembers false members rest)
    {key : Except Fault String} (named : key.toOption = Piece.string? pieces) {d : Document}
    (shown : Depicts value d) {placed : List (Except Fault String × Placed)}
    (others : DepictsMembers members placed) (behind : List Char) (n : Nat) :
    LabelRoom ⟨lead ++ (comma true ++ (gap ++ (quoted pieces ++ (before ++ ':' :: (space ++
        (text ++ (rest ++ behind))))))), n⟩
      ((key, colonEnd true lead gap pieces before n + space.length, d) :: placed) where
  opens _ := by
    rw [skipSpace_blank led, comma, if_pos rfl, List.nil_append, skipSpace_blank blank, quoted,
      List.cons_append, skipSpace_solid rfl]
    rfl
  closes := by
    rintro label start later ⟨⟩ single
    cases shown
    cases head
    obtain ⟨chars, given, same⟩ := Option.map_eq_some_iff.mp named.symm
    have bytes : ∀ c ∈ chars, c.utf8Size = 1 := by
      rw [← String.toList_ofList (l := chars), same]
      exact single
    dsimp only
    rw [drop_firstNull given bytes, closeLabel_iff tail]
    cases others with
    | nil => exact iff_of_true rfl rfl
    | cons => exact iff_of_false (List.cons_ne_nil _ _) (List.cons_ne_nil _ _)

/-! ### Whole spellings -/

mutual

/-- What the grammar allows is read as a document that depicts it, up to its end. -/
theorem Spelled.read {tree : Tree} {text : List Char} (spelled : Spelled tree text) (fuel : Nat)
    (enough : text.length ≤ fuel) {rest : List Char} (ends : EndsNumber rest) (n : Nat) :
    ReadAs tree n rest (readValue fuel ⟨text ++ rest, n⟩) := by
  have some := spelled.length_pos
  obtain ⟨fuel, rfl⟩ : ∃ m, fuel = m + 1 := Nat.exists_eq_succ_of_ne_zero (by omega)
  match spelled with
  | .null => exact readAs_null fuel rest n
  | .bool b => exact readAs_bool b fuel rest n
  | .number formed spelled => exact readAs_number formed spelled ends fuel n
  | .string pieces => exact readAs_string pieces fuel rest n
  | .array items =>
    obtain ⟨placed, stop, read, shown⟩ :=
      items.read fuel (Nat.le_of_succ_le_succ enough) rest (n + 1)
    refine ⟨.array placed none, stop, ?_, .array shown⟩
    rw [List.cons_append, readValue_bracket, read]
  | @Spelled.object _ body members =>
    obtain ⟨placed, stop, read, shown, room⟩ :=
      members.read fuel (Nat.le_of_succ_le_succ enough) rest (n + 1)
    refine ⟨.object ⟨body ++ rest, n + 1⟩ placed none, stop, ?_, .object shown (room rfl)⟩
    rw [List.cons_append, readValue_brace, read]

theorem SpelledItems.read {first : Bool} {items : List Tree} {text : List Char}
    (spelled : SpelledItems first items text) (fuel : Nat) (enough : text.length ≤ fuel)
    (rest : List Char) (n : Nat) :
    ∃ placed stop, readItems fuel first ⟨text ++ rest, n⟩ = (placed, none, some ⟨rest, stop⟩) ∧
      DepictsItems items placed := by
  have some := spelled.length_pos
  obtain ⟨fuel, rfl⟩ : ∃ m, fuel = m + 1 := Nat.exists_eq_succ_of_ne_zero (by omega)
  match spelled with
  | .nil first blank =>
    obtain ⟨stop, read⟩ := readItems_stop blank fuel first rest n
    refine ⟨[], stop, ?_, .nil⟩
    rw [List.append_assoc]
    exact read
  | @SpelledItems.cons first lead gap value others item items led blank head tail =>
    have := head.length_pos
    have := tail.length_pos
    simp only [List.length_append] at enough
    obtain ⟨c, chars, shape, solid, goesOn⟩ := head.starts
    obtain ⟨m, step⟩ :=
      readItems_step led blank solid goesOn fuel first (chars ++ (others ++ rest)) n
    obtain ⟨d, stop, read, shown⟩ := head.read fuel (by omega) (tail.endsNumber rest) m
    obtain ⟨placed, last, readOthers, shownOthers⟩ := tail.read fuel (by omega) rest stop
    refine ⟨(m, d) :: placed, last, ?_, .cons shown shownOthers⟩
    rw [shape, List.cons_append] at read
    simp only [shape, List.append_assoc, List.cons_append]
    exact step read readOthers

theorem SpelledMembers.read {first : Bool} {members : List (Option String × Tree)}
    {text : List Char} (spelled : SpelledMembers first members text) (fuel : Nat)
    (enough : text.length ≤ fuel) (rest : List Char) (n : Nat) :
    ∃ placed stop, readMembers fuel first ⟨text ++ rest, n⟩ = (placed, none, some ⟨rest, stop⟩) ∧
      DepictsMembers members placed ∧ (first = true → LabelRoom ⟨text ++ rest, n⟩ placed) := by
  have some := spelled.length_pos
  obtain ⟨fuel, rfl⟩ : ∃ m, fuel = m + 1 := Nat.exists_eq_succ_of_ne_zero (by omega)
  match spelled with
  | .nil first blank =>
    obtain ⟨stop, read⟩ := readMembers_stop blank fuel first rest n
    refine ⟨[], stop, ?_, .nil, fun _ => labelRoom_nil _⟩
    rw [List.append_assoc]
    exact read
  | @SpelledMembers.cons first lead gap before space value others j members led blank pieces
      parted spaced head tail =>
    have := head.length_pos
    have := tail.length_pos
    simp only [List.length_append, List.length_cons] at enough
    obtain ⟨fuel, rfl⟩ : ∃ m, fuel = m + 1 := Nat.exists_eq_succ_of_ne_zero (by omega)
    obtain ⟨key, named, step⟩ := readMembers_step led blank pieces parted (fuel + 1) first
      (space ++ (value ++ (others ++ rest))) n
    obtain ⟨d, stop, read, shown⟩ := head.read (fuel + 1) (by omega) (tail.endsNumber rest)
      (colonEnd first lead gap pieces before n + space.length)
    obtain ⟨placed, last, readOthers, shownOthers, -⟩ := tail.read (fuel + 1) (by omega) rest stop
    refine ⟨(key, colonEnd first lead gap pieces before n + space.length, d) :: placed, last,
      ?_, ?_, ?_⟩
    · simp only [List.append_assoc, List.cons_append]
      exact step ((readValue_blank spaced ..).trans read) readOthers
    · exact .cons named shown shownOthers
    · rintro rfl
      simp only [List.append_assoc, List.cons_append]
      exact labelRoom_cons led blank head tail named shown shownOthers rest n

end

/-- A spelling with blanks around it is a document that depicts the tree, and nothing trails
it. -/
theorem read_spelled {tree : Tree} {lead text gap : List Char} (led : IsBlank lead)
    (spelled : Spelled tree text) (blank : IsBlank gap) :
    ∃ d, Text.read (String.ofList (lead ++ (text ++ gap))) = ⟨(lead.length, d), none⟩ ∧
      Depicts tree d := by
  obtain ⟨d, stop, read, shown⟩ := spelled.read (2 * (lead ++ (text ++ gap)).length + 1 + 1)
    (by simp only [List.length_append]; omega) (endsNumber_of_blank blank) (0 + lead.length)
  refine ⟨d, ?_, shown⟩
  have trailing : (⟨gap, stop⟩ : Cursor).skipSpace.rest = [] := by
    rw [← List.append_nil gap, skipSpace_blank blank]
    rfl
  rw [← readValue_blank led, Nat.zero_add] at read
  rw [Text.read, readAt, Cursor.ofString, String.toList_ofList, read]
  dsimp only
  rw [trailing]
  rfl

end Uplift.Json
