import Uplift.Proofs.Json.Numbers
import Uplift.Proofs.Json.Parsing

/-!
# Reading what was written

`Written` is what a writing of a value may look like, with any blanks between its parts; both
printers write so. Such a text is read as a document that shows the value (`read_written`): the
same strings and keys in the same places, and the same numbers where they fit a word.
-/

namespace Uplift.Json

/-! ### Writings -/

mutual

inductive Written : Json → List Char → Prop
  | null : Written null ['n', 'u', 'l', 'l']
  | bool (b : Bool) : Written (bool b) (boolText b)
  | number (n : Number) : Written (number n) n.text
  | string (s : String) : Written (string s) (quote s)
  | array {items : List Json} {text : List Char} (written : WrittenItems true items text) :
      Written (array items) ('[' :: text)
  | object {members : List (String × Json)} {text : List Char}
      (written : WrittenMembers true members text) : Written (object members) ('\x7b' :: text)

/-- The text is a writing of the items, the first of them or those behind a comma, with the
closing bracket. -/
inductive WrittenItems : Bool → List Json → List Char → Prop
  | nil (first : Bool) {gap : List Char} (blank : IsBlank gap) :
      WrittenItems first [] (gap ++ [']'])
  | cons (first : Bool) {gap text rest : List Char} {item : Json} {items : List Json}
      (blank : IsBlank gap) (head : Written item text) (tail : WrittenItems false items rest) :
      WrittenItems first (item :: items) (comma first ++ (gap ++ (text ++ rest)))

inductive WrittenMembers : Bool → List (String × Json) → List Char → Prop
  | nil (first : Bool) {gap : List Char} (blank : IsBlank gap) :
      WrittenMembers first [] (gap ++ ['\x7d'])
  | cons (first : Bool) {gap space text rest : List Char} {key : String} {value : Json}
      {members : List (String × Json)} (blank : IsBlank gap) (spaced : IsBlank space)
      (head : Written value text) (tail : WrittenMembers false members rest) :
      WrittenMembers first ((key, value) :: members)
        (comma first ++ (gap ++ (quote key ++ ':' :: (space ++ (text ++ rest)))))

end

/-! ### Documents that show a value -/

mutual

/-- The document shows the value. A number that fits no word may show as any other, or as none if
it cannot be read. -/
inductive Shows : Json → Document → Prop
  | null : Shows null .null
  | bool (b : Bool) : Shows (bool b) (.bool b)
  | number {n : Number} {value : Except Fault Number} (same : n.IsWord → value = .ok n)
      (legible : (∃ m, value = .ok m) ↔ n.Legible) : Shows (number n) (.number value)
  | nothing {n : Number} (other : ¬n.IsWord) (legible : n.Legible) : Shows (number n) .null
  | string (s : String) : Shows (string s) (.string (.ok s))
  | array {items : List Json} {placed : List Placed} (shown : ShowsItems items placed) :
      Shows (array items) (.array placed none)
  | object {members : List (String × Json)} {body : Cursor}
      {placed : List (Except Fault String × Placed)} (shown : ShowsMembers members placed) :
      Shows (object members) (.object body placed none)

inductive ShowsItems : List Json → List Placed → Prop
  | nil : ShowsItems [] []
  | cons {item : Json} {items : List Json} {start : Nat} {d : Document} {placed : List Placed}
      (head : Shows item d) (tail : ShowsItems items placed) :
      ShowsItems (item :: items) ((start, d) :: placed)

inductive ShowsMembers : List (String × Json) → List (Except Fault String × Placed) → Prop
  | nil : ShowsMembers [] []
  | cons {key : String} {value : Json} {members : List (String × Json)} {start : Nat}
      {d : Document} {placed : List (Except Fault String × Placed)}
      (head : Shows value d) (tail : ShowsMembers members placed) :
      ShowsMembers ((key, value) :: members) ((.ok key, start, d) :: placed)

end

/-! ### Trees that tell a value -/

mutual

/-- The tree tells the value: a number by the numeral that it is written as, or by null if it is
written as null. -/
inductive Tells : Tree → Json → Prop
  | null : Tells .null null
  | bool (b : Bool) : Tells (.bool b) (bool b)
  | number {n : Number} {numeral : Numeral} (formed : numeral.WellFormed)
      (text : n.text = numeral.text)
      (word : n.IsWord → ∀ exponentAt stop, numeral.value exponentAt stop = .ok n) :
      Tells (.number numeral) (number n)
  | nothing {n : Number} (other : ¬n.IsWord) (text : n.text = ['n', 'u', 'l', 'l']) :
      Tells .null (number n)
  | string (s : String) : Tells (.string (some s)) (string s)
  | array {trees : List Tree} {items : List Json} (each : TellsItems trees items) :
      Tells (.array trees) (array items)
  | object {trees : List (Option String × Tree)} {members : List (String × Json)}
      (each : TellsMembers trees members) : Tells (.object trees) (object members)

inductive TellsItems : List Tree → List Json → Prop
  | nil : TellsItems [] []
  | cons {tree : Tree} {trees : List Tree} {item : Json} {items : List Json}
      (head : Tells tree item) (tail : TellsItems trees items) :
      TellsItems (tree :: trees) (item :: items)

inductive TellsMembers : List (Option String × Tree) → List (String × Json) → Prop
  | nil : TellsMembers [] []
  | cons (key : String) {tree : Tree} {trees : List (Option String × Tree)} {value : Json}
      {members : List (String × Json)} (head : Tells tree value)
      (tail : TellsMembers trees members) :
      TellsMembers ((some key, tree) :: trees) ((key, value) :: members)

end

theorem exists_tells_number (n : Number) : ∃ tree, Spelled tree n.text ∧ Tells tree (number n) := by
  obtain ⟨other, text⟩ | ⟨numeral, formed, text, word⟩ := n.text_cases
  · exact ⟨.null, by rw [text]; exact .null, .nothing other text⟩
  · exact ⟨.number numeral, by rw [text]; exact .number formed numeral.spelled_text,
      .number formed text word⟩

mutual

theorem Written.spelled {j : Json} {text : List Char} (written : Written j text) :
    ∃ tree, Spelled tree text ∧ Tells tree j := by
  match written with
  | .null => exact ⟨.null, .null, .null⟩
  | .bool b => exact ⟨.bool b, .bool b, .bool b⟩
  | .number n => exact exists_tells_number n
  | .string s =>
    obtain ⟨pieces, text, given⟩ := exists_pieces s
    exact ⟨.string (some s), by rw [text, ← given]; exact .string pieces, .string s⟩
  | .array items =>
    obtain ⟨trees, spelled, each⟩ := items.spelled
    exact ⟨.array trees, .array spelled, .array each⟩
  | .object members =>
    obtain ⟨trees, spelled, each⟩ := members.spelled
    exact ⟨.object trees, .object spelled, .object each⟩

theorem WrittenItems.spelled {first : Bool} {items : List Json} {text : List Char}
    (written : WrittenItems first items text) :
    ∃ trees, SpelledItems first trees text ∧ TellsItems trees items := by
  match written with
  | .nil first blank => exact ⟨[], .nil first blank, .nil⟩
  | .cons first blank head tail =>
    obtain ⟨tree, own, told⟩ := head.spelled
    obtain ⟨trees, others, each⟩ := tail.spelled
    exact ⟨tree :: trees, .cons first isBlank_nil blank own others, .cons told each⟩

theorem WrittenMembers.spelled {first : Bool} {members : List (String × Json)} {text : List Char}
    (written : WrittenMembers first members text) :
    ∃ trees, SpelledMembers first trees text ∧ TellsMembers trees members := by
  match written with
  | .nil first blank => exact ⟨[], .nil first blank, .nil⟩
  | @WrittenMembers.cons first gap space text rest key value members blank spaced head tail =>
    obtain ⟨pieces, name, given⟩ := exists_pieces key
    obtain ⟨tree, own, told⟩ := head.spelled
    obtain ⟨trees, others, each⟩ := tail.spelled
    refine ⟨(some key, tree) :: trees, ?_, .cons key told each⟩
    rw [name, ← given]
    exact .cons first isBlank_nil blank pieces isBlank_nil spaced own others

end

/-! ### Numbers that can be read -/

theorem read_numeral {numeral : Numeral} (formed : numeral.WellFormed) :
    ∃ exponentAt stop, Text.read (String.ofList numeral.text) =
      ⟨(0, .number (numeral.value exponentAt stop)), none⟩ := by
  obtain ⟨d, read, shown⟩ :=
    read_spelled isBlank_nil (.number formed numeral.spelled_text) isBlank_nil
  cases shown with
  | number _ exponentAt stop =>
    refine ⟨exponentAt, stop, ?_⟩
    rw [List.append_nil] at read
    exact read

theorem Number.legible_iff {value : Number} {numeral : Numeral} (formed : numeral.WellFormed)
    (text : value.text = numeral.text) (exponentAt stop : Nat) :
    (∃ m, numeral.value exponentAt stop = .ok m) ↔ value.Legible := by
  obtain ⟨exponentAt', stop', document⟩ := read_numeral formed
  rw [numeral.value_ok_iff exponentAt stop exponentAt' stop', Legible, text, parse?, document]
  cases numeral.value exponentAt' stop' with
  | ok m => exact iff_of_true ⟨m, rfl⟩ ⟨.number m, rfl⟩
  | error fault => exact iff_of_false nofun nofun

/-! ### What depicts a writing shows the value -/

mutual

theorem Tells.shows {tree : Tree} {j : Json} (told : Tells tree j) {d : Document}
    (depicts : Depicts tree d) : Shows j d := by
  match told, depicts with
  | .null, .null => exact .null
  | .bool b, .bool _ => exact .bool b
  | .number formed text word, .number _ exponentAt stop =>
    exact .number (word · _ _) (Number.legible_iff formed text _ _)
  | .nothing other text, .null => exact .nothing other ⟨.null, by rw [text]; rfl⟩
  | .string s, .string same =>
    rw [ok_of_toOption same]
    exact .string s
  | .array each, .array shown => exact .array (each.shows shown)
  | .object each, .object shown _ => exact .object (each.shows shown)

theorem TellsItems.shows {trees : List Tree} {items : List Json} (told : TellsItems trees items)
    {placed : List Placed} (depicts : DepictsItems trees placed) : ShowsItems items placed := by
  match told, depicts with
  | .nil, .nil => exact .nil
  | .cons head tail, .cons shown others => exact .cons (head.shows shown) (tail.shows others)

theorem TellsMembers.shows {trees : List (Option String × Tree)} {members : List (String × Json)}
    (told : TellsMembers trees members) {placed : List (Except Fault String × Placed)}
    (depicts : DepictsMembers trees placed) : ShowsMembers members placed := by
  match told, depicts with
  | .nil, .nil => exact .nil
  | .cons key head tail, .cons same shown others =>
    rw [ok_of_toOption same]
    exact .cons (head.shows shown) (tail.shows others)

end

/-- A written text with blanks behind it is a document that shows the value, and nothing
trails it. -/
theorem read_written {j : Json} {text gap : List Char} (written : Written j text)
    (blank : IsBlank gap) :
    ∃ start d, Text.read (String.ofList (text ++ gap)) = ⟨(start, d), none⟩ ∧ Shows j d := by
  obtain ⟨tree, spelled, told⟩ := written.spelled
  obtain ⟨d, read, depicts⟩ := read_spelled isBlank_nil spelled blank
  exact ⟨0, d, read, told.shows depicts⟩

/-! ### The printers -/

theorem isBlank_space : IsBlank [' '] := by decide

theorem isBlank_indentation (depth : Nat) : IsBlank (indentation depth) := by
  intro c member
  rcases List.mem_cons.mp member with rfl | space
  · rfl
  · rw [List.eq_of_mem_replicate space]
    rfl

mutual

theorem written_pretty (depth : Nat) (j : Json) : Written j (prettyChars depth j) := by
  match j with
  | null => exact .null
  | bool b => exact .bool b
  | number n => exact .number n
  | string s => exact .string s
  | array [] => exact .array (.nil true isBlank_nil)
  | array (item :: items) =>
    rw [prettyChars, List.append_assoc]
    exact .array (.cons true (isBlank_indentation (depth + 1))
      (written_pretty (depth + 1) item) (written_prettyItems depth items))
  | object [] => exact .object (.nil true isBlank_nil)
  | object ((key, value) :: members) =>
    rw [prettyChars, List.append_assoc, List.append_assoc]
    exact .object (.cons true (isBlank_indentation (depth + 1)) isBlank_space
      (written_pretty (depth + 1) value) (written_prettyMembers depth members))

theorem written_prettyItems (depth : Nat) (items : List Json) :
    WrittenItems false items (prettyItems depth items) := by
  match items with
  | [] => exact .nil false (isBlank_indentation depth)
  | item :: items =>
    rw [prettyItems, List.append_assoc]
    exact .cons false (isBlank_indentation (depth + 1))
      (written_pretty (depth + 1) item) (written_prettyItems depth items)

theorem written_prettyMembers (depth : Nat) (members : List (String × Json)) :
    WrittenMembers false members (prettyMembers depth members) := by
  match members with
  | [] => exact .nil false (isBlank_indentation depth)
  | (key, value) :: members =>
    rw [prettyMembers, List.append_assoc, List.append_assoc]
    exact .cons false (isBlank_indentation (depth + 1)) isBlank_space
      (written_pretty (depth + 1) value) (written_prettyMembers depth members)

end

mutual

theorem written_compact (j : Json) : Written j (compactChars j) := by
  match j with
  | null => exact .null
  | bool b => exact .bool b
  | number n => exact .number n
  | string s => exact .string s
  | array [] => exact .array (.nil true isBlank_nil)
  | array (item :: items) =>
    exact .array (.cons true isBlank_nil (written_compact item) (written_compactItems items))
  | object [] => exact .object (.nil true isBlank_nil)
  | object ((key, value) :: members) =>
    rw [compactChars, List.append_assoc]
    exact .object (.cons true isBlank_nil isBlank_nil (written_compact value)
      (written_compactMembers members))

theorem written_compactItems (items : List Json) :
    WrittenItems false items (compactItems items) := by
  match items with
  | [] => exact .nil false isBlank_nil
  | item :: items =>
    exact .cons false isBlank_nil (written_compact item) (written_compactItems items)

theorem written_compactMembers (members : List (String × Json)) :
    WrittenMembers false members (compactMembers members) := by
  match members with
  | [] => exact .nil false isBlank_nil
  | (key, value) :: members =>
    rw [compactMembers, List.append_assoc]
    exact .cons false isBlank_nil isBlank_nil (written_compact value)
      (written_compactMembers members)

end

theorem read_pretty (j : Json) {gap : String} (blank : IsBlank gap.toList) :
    ∃ start d, Text.read (j.pretty ++ gap) = ⟨(start, d), none⟩ ∧ Shows j d := by
  have read := read_written (written_pretty 0 j) blank
  rw [String.ofList_append, String.ofList_toList] at read
  exact read

theorem isText_of_written {j : Json} {text : List Char} (written : Written j text) :
    ∃ tree, IsText tree (String.ofList text) ∧ Tells tree j := by
  obtain ⟨tree, spelled, told⟩ := written.spelled
  refine ⟨tree, ⟨[], text, [], isBlank_nil, spelled, isBlank_nil, ?_⟩, told⟩
  rw [List.append_nil, List.nil_append]

theorem isText_compact (j : Json) : ∃ tree, IsText tree j.compact ∧ Tells tree j :=
  isText_of_written (written_compact j)

theorem isText_pretty (j : Json) : ∃ tree, IsText tree j.pretty ∧ Tells tree j :=
  isText_of_written (written_pretty 0 j)

end Uplift.Json
