import Uplift.Json.Document
import Uplift.Json.Printer

/-!
# Scanning what was written

A string is read as what its pieces stand for, up to its closing quote (`scanString_pieces`), and
a numeral as itself, however it is spelled (`scanNumber_numeral`).
-/

namespace Uplift.Json

/-! ### Blanks -/

def IsBlank (text : List Char) : Prop := ∀ c ∈ text, Cursor.isSpace c = true

instance (text : List Char) : Decidable (IsBlank text) :=
  decidable_of_iff (text.all Cursor.isSpace = true) List.all_eq_true

theorem skipSpace_solid {c : Char} (solid : Cursor.isSpace c = false) (rest : List Char)
    (n : Nat) : (⟨c :: rest, n⟩ : Cursor).skipSpace = ⟨c :: rest, n⟩ := by
  simp [Cursor.skipSpace, Cursor.skipSpace.go, solid]

theorem skipSpace_blank {blank : List Char} (isBlank : IsBlank blank) (rest : List Char)
    (n : Nat) :
    (⟨blank ++ rest, n⟩ : Cursor).skipSpace =
      (⟨rest, n + blank.length⟩ : Cursor).skipSpace := by
  induction blank generalizing n with
  | nil => rfl
  | cons c blank ih =>
    have space : Cursor.isSpace c = true := isBlank c List.mem_cons_self
    have others : IsBlank blank := fun x member => isBlank x (List.mem_cons_of_mem _ member)
    rw [List.cons_append, Cursor.skipSpace, Cursor.skipSpace.go, if_pos space]
    rw [show n + (c :: blank).length = n + 1 + blank.length by simp; omega]
    exact ih others (n + 1)

/-! ### Strings -/

/-- A part of a string as it may be spelled: a character as it is, a letter behind a backslash,
or the four digits of a UTF-16 unit. -/
inductive Piece where
  | plain (c : Char) (free : c ≠ '"' ∧ c ≠ '\\' ∧ ¬c.toNat < 0x20)
  | short (e c : Char) (known : simpleEscape? e = some c)
  | unit (a b c d : Char) (code : Nat) (known : hex4? a b c d = some code)

namespace Piece

def text : Piece → List Char
  | plain c _ => [c]
  | short e _ _ => ['\\', e]
  | unit a b c d _ _ => ['\\', 'u', a, b, c, d]

/-- In bytes. -/
def size : Piece → Nat
  | plain c _ => c.utf8Size
  | short .. => 2
  | unit .. => 6

def sizes : List Piece → Nat
  | [] => 0
  | piece :: rest => piece.size + sizes rest

def joined (high low : Nat) : Char :=
  Char.ofNat (0x10000 + (high - 0xd800) * 0x400 + (low - 0xdc00))

/-- What pieces stand for. A high unit and the low one behind it are one character, and there is
none for one of the two alone. -/
def chars? : List Piece → Option (List Char)
  | [] => some []
  | plain c _ :: rest => (chars? rest).map (c :: ·)
  | short _ c _ :: rest => (chars? rest).map (c :: ·)
  | unit _ _ _ _ code _ :: rest =>
    if isLowSurrogate code then none
    else if isHighSurrogate code then
      match rest with
      | unit _ _ _ _ low _ :: rest =>
        if isLowSurrogate low then (chars? rest).map (joined code low :: ·) else none
      | _ => none
    else (chars? rest).map (Char.ofNat code :: ·)

def string? (pieces : List Piece) : Option String := (chars? pieces).map String.ofList

end Piece

def quoted (pieces : List Piece) : List Char := '"' :: (pieces.flatMap Piece.text ++ ['"'])

theorem scanString_simple {e x : Char} (known : simpleEscape? e = some x) (rest : List Char)
    (n : Nat) : scanString ('\\' :: e :: rest) n = (scanString rest (n + 2)).push x := by
  have simple : e ≠ 'u' := by
    rintro rfl
    simp [simpleEscape?] at known
  rw [scanString.eq_def]
  simp [simple, known]

theorem scanString_raw {c : Char} (quote : c ≠ '"') (escape : c ≠ '\\') (text : ¬c.toNat < 0x20)
    (rest : List Char) (n : Nat) :
    scanString (c :: rest) n = (scanString rest (n + c.utf8Size)).push c := by
  rw [scanString.eq_def]
  simp [quote, escape, text]

section Units

variable {a b c d : Char} {code : Nat} (known : hex4? a b c d = some code)

include known

theorem scanString_unit (low : isLowSurrogate code = false) (high : isHighSurrogate code = false)
    (rest : List Char) (n : Nat) :
    scanString ('\\' :: 'u' :: a :: b :: c :: d :: rest) n =
      (scanString rest (n + 6)).push (Char.ofNat code) := by
  rw [scanString.eq_def]
  simp [known, low, high]

theorem scanString_low (low : isLowSurrogate code = true) (rest : List Char) (n : Nat) :
    scanString ('\\' :: 'u' :: a :: b :: c :: d :: rest) n =
      (scanString rest (n + 6)).flaw .loneSurrogate (n + 6) := by
  rw [scanString.eq_def]
  simp [known, low]

theorem scanString_pair {a' b' c' d' : Char} {code' : Nat} (known' : hex4? a' b' c' d' = some code')
    (low : isLowSurrogate code = false) (high : isHighSurrogate code = true)
    (rest : List Char) (n : Nat) :
    scanString ('\\' :: 'u' :: a :: b :: c :: d :: '\\' :: 'u' :: a' :: b' :: c' :: d' :: rest) n =
      if isLowSurrogate code' then (scanString rest (n + 12)).push (Piece.joined code code')
      else (scanString rest (n + 12)).flaw .loneSurrogate (n + 12) := by
  rw [scanString.eq_def]
  simp [known, known', low, high, Piece.joined]

/-- Behind a high unit something else than a unit is missed, and read on its own. -/
theorem scanString_high (low : isLowSurrogate code = false) (high : isHighSurrogate code = true)
    {rest : List Char} (given : rest ≠ []) (other : ∀ tail, rest ≠ '\\' :: 'u' :: tail)
    (complete : rest ≠ ['\\']) (n : Nat) :
    ∃ position, scanString ('\\' :: 'u' :: a :: b :: c :: d :: rest) n =
      (scanString rest (n + 6)).flaw .unexpectedHexEnd position := by
  rw [scanString.eq_def]
  match rest with
  | [x] =>
    have plain : x ≠ '\\' := fun same => complete (by rw [same])
    exact ⟨n + 7, by simp [known, low, high, plain]⟩
  | x :: y :: tail =>
    by_cases plain : x = '\\'
    · have letter : y ≠ 'u' := fun same => other tail (by rw [plain, same])
      exact ⟨n + 8, by simp [known, low, high, plain, letter]⟩
    · exact ⟨n + 7, by simp [known, low, high, plain]⟩

end Units

def Scanned.Gives (s : Scanned) (chars : Option (List Char)) (after : Cursor) : Prop :=
  ∃ value, s = .closed value after ∧ value.toOption = chars

theorem Scanned.Gives.push {s : Scanned} {chars : Option (List Char)} {after : Cursor}
    (gives : s.Gives chars after) (c : Char) :
    (s.push c).Gives (chars.map (c :: ·)) after := by
  obtain ⟨value, rfl, rfl⟩ := gives
  refine ⟨value.map (c :: ·), rfl, ?_⟩
  cases value <;> rfl

theorem Scanned.Gives.flaw {s : Scanned} {chars : Option (List Char)} {after : Cursor}
    (gives : s.Gives chars after) (kind : FaultKind) (position : Nat) :
    (s.flaw kind position).Gives none after := by
  obtain ⟨value, rfl, -⟩ := gives
  exact ⟨_, rfl, rfl⟩

theorem no_unit_behind {pieces : List Piece} (rest : List Char)
    (other : ∀ a b c d code known tail, pieces ≠ .unit a b c d code known :: tail) :
    pieces.flatMap Piece.text ++ '"' :: rest ≠ [] ∧
      (∀ tail, pieces.flatMap Piece.text ++ '"' :: rest ≠ '\\' :: 'u' :: tail) ∧
      pieces.flatMap Piece.text ++ '"' :: rest ≠ ['\\'] := by
  match pieces with
  | [] => exact ⟨nofun, nofun, nofun⟩
  | .plain c free :: pieces =>
    refine ⟨nofun, fun tail same => ?_, fun same => ?_⟩
    all_goals exact free.2.1 (List.cons.inj same).1
  | .short e c known :: pieces =>
    refine ⟨nofun, fun tail same => ?_, nofun⟩
    obtain rfl : e = 'u' := (List.cons.inj (List.cons.inj same).2).1
    simp [simpleEscape?] at known
  | .unit a b c d code known :: pieces => exact absurd rfl (other a b c d code known pieces)

/-- A string is read as what its pieces stand for, up to its closing quote. -/
theorem scanString_pieces (pieces : List Piece) (rest : List Char) (n : Nat) :
    (scanString (pieces.flatMap Piece.text ++ '"' :: rest) n).Gives (Piece.chars? pieces)
      ⟨rest, n + Piece.sizes pieces + 1⟩ := by
  -- The induction is on the pieces two at a time, since two units may be read at once.
  match pieces with
  | [] => exact ⟨.ok [], by rw [scanString.eq_def]; rfl, rfl⟩
  | .plain c free :: pieces =>
    have others := scanString_pieces pieces rest (n + c.utf8Size)
    rw [Nat.add_assoc n] at others
    rw [List.flatMap_cons, List.append_assoc, Piece.chars?]
    exact (scanString_raw free.1 free.2.1 free.2.2 _ n).symm ▸ others.push c
  | .short e c known :: pieces =>
    have others := scanString_pieces pieces rest (n + 2)
    rw [Nat.add_assoc n] at others
    rw [List.flatMap_cons, List.append_assoc, Piece.chars?]
    exact (scanString_simple known _ n).symm ▸ others.push c
  | .unit a b c d code known :: pieces =>
    have others := scanString_pieces pieces rest (n + 6)
    rw [Nat.add_assoc n] at others
    rw [List.flatMap_cons, List.append_assoc, Piece.chars?.eq_def]
    dsimp only
    cases low : isLowSurrogate code with
    | true =>
      rw [if_pos rfl]
      exact (scanString_low known low _ n).symm ▸ others.flaw _ _
    | false =>
      rw [if_neg Bool.false_ne_true]
      cases high : isHighSurrogate code with
      | false =>
        rw [if_neg Bool.false_ne_true]
        exact (scanString_unit known low high _ n).symm ▸ others.push _
      | true =>
        rw [if_pos rfl]
        split
        case h_1 a' b' c' d' code' known' pieces =>
          have others := scanString_pieces pieces rest (n + 12)
          rw [Nat.add_assoc n, show 12 = 6 + 6 from rfl, Nat.add_assoc 6] at others
          rw [List.flatMap_cons, List.append_assoc]
          refine (scanString_pair known known' low high _ n).symm ▸ ?_
          split
          · exact others.push _
          · exact others.flaw _ _
        case h_2 other =>
          obtain ⟨given, other, complete⟩ := no_unit_behind rest other
          obtain ⟨position, missed⟩ := scanString_high known low high given other complete n
          exact missed.symm ▸ others.flaw _ _

theorem hexValue?_hexDigit : ∀ n < 16, hexValue? (hexDigit n) = some n := by decide

theorem hex4?_control {c : Char} (control : c.toNat < 0x20) :
    hex4? '0' '0' (hexDigit (c.toNat / 16)) (hexDigit (c.toNat % 16)) = some c.toNat := by
  have zero : hexValue? '0' = some 0 := by decide
  have high := hexValue?_hexDigit (c.toNat / 16) (by omega)
  have low := hexValue?_hexDigit (c.toNat % 16) (by omega)
  simp only [hex4?, zero, high, low, Option.bind_eq_bind, Option.bind_some, Option.pure_def,
    Option.some.injEq]
  omega

theorem exists_piece (c : Char) :
    ∃ piece : Piece, piece.text = escapeChar c ∧
      ∀ pieces, Piece.chars? (piece :: pieces) = (Piece.chars? pieces).map (c :: ·) := by
  unfold escapeChar
  split
  case isTrue quote => exact ⟨.short '"' c (by rw [quote]; rfl), rfl, fun _ => rfl⟩
  split
  case isTrue backslash => exact ⟨.short '\\' c (by rw [backslash]; rfl), rfl, fun _ => rfl⟩
  split
  case isTrue newline => exact ⟨.short 'n' c (by rw [newline]; rfl), rfl, fun _ => rfl⟩
  split
  case isTrue «return» => exact ⟨.short 'r' c (by rw [«return»]; rfl), rfl, fun _ => rfl⟩
  split
  case isTrue tab => exact ⟨.short 't' c (by rw [tab]; rfl), rfl, fun _ => rfl⟩
  split
  case isTrue backspace =>
    obtain rfl : c = '\x08' := Char.toNat_inj.mp backspace
    exact ⟨.short 'b' _ rfl, rfl, fun _ => rfl⟩
  split
  case isTrue feed =>
    obtain rfl : c = '\x0c' := Char.toNat_inj.mp feed
    exact ⟨.short 'f' _ rfl, rfl, fun _ => rfl⟩
  split
  case isTrue control =>
    refine ⟨.unit '0' '0' _ _ _ (hex4?_control control), rfl, fun pieces => ?_⟩
    have low : isLowSurrogate c.toNat = false := by
      simp only [isLowSurrogate, Bool.and_eq_false_iff, decide_eq_false_iff_not]
      omega
    have high : isHighSurrogate c.toNat = false := by
      simp only [isHighSurrogate, Bool.and_eq_false_iff, decide_eq_false_iff_not]
      omega
    rw [Piece.chars?.eq_def]
    simp [low, high, Char.ofNat_toNat]
  case isFalse quote backslash _ _ _ _ _ text =>
    exact ⟨.plain c ⟨quote, backslash, text⟩, rfl, fun _ => rfl⟩

theorem exists_pieces (s : String) :
    ∃ pieces, quote s = quoted pieces ∧ Piece.string? pieces = some s := by
  suffices spelled : ∀ chars : List Char, ∃ pieces : List Piece,
      chars.flatMap escapeChar = pieces.flatMap Piece.text ∧ Piece.chars? pieces = some chars by
    obtain ⟨pieces, text, chars⟩ := spelled s.toList
    refine ⟨pieces, by rw [quote, quoted, text, List.cons_append], ?_⟩
    rw [Piece.string?, chars, Option.map_some, String.ofList_toList]
  intro chars
  induction chars with
  | nil => exact ⟨[], rfl, rfl⟩
  | cons c chars ih =>
    obtain ⟨pieces, texts, others⟩ := ih
    obtain ⟨piece, text, own⟩ := exists_piece c
    refine ⟨piece :: pieces, ?_, ?_⟩
    · rw [List.flatMap_cons, List.flatMap_cons, text, texts]
    · rw [own, others, Option.map_some]

theorem sizes_cons (piece : Piece) {pieces : List Piece} (own : piece.size = piece.text.length)
    (others : Piece.sizes pieces = (pieces.flatMap Piece.text).length) :
    Piece.sizes (piece :: pieces) = ((piece :: pieces).flatMap Piece.text).length := by
  rw [Piece.sizes, List.flatMap_cons, List.length_append, own, others]

theorem sizes_eq {pieces : List Piece} {chars : List Char}
    (given : Piece.chars? pieces = some chars) (single : ∀ c ∈ chars, c.utf8Size = 1) :
    Piece.sizes pieces = (pieces.flatMap Piece.text).length := by
  match pieces with
  | [] => rfl
  | .plain c free :: pieces =>
    obtain ⟨rest, same, rfl⟩ := Option.map_eq_some_iff.mp given
    have others := sizes_eq same (List.forall_mem_cons.mp single).2
    exact sizes_cons (.plain c free) (List.forall_mem_cons.mp single).1 others
  | .short e c known :: pieces =>
    obtain ⟨rest, same, rfl⟩ := Option.map_eq_some_iff.mp given
    have others := sizes_eq same (List.forall_mem_cons.mp single).2
    exact sizes_cons (.short e c known) rfl others
  | .unit a b c d code known :: pieces =>
    have behind {others : List Piece} {x : Char}
        (given : (Piece.chars? others).map (x :: ·) = some chars) :
        ∃ rest, Piece.chars? others = some rest ∧ ∀ c ∈ rest, c.utf8Size = 1 := by
      obtain ⟨rest, same, rfl⟩ := Option.map_eq_some_iff.mp given
      exact ⟨rest, same, (List.forall_mem_cons.mp single).2⟩
    rw [Piece.chars?.eq_def] at given
    dsimp only at given
    split at given
    · cases given
    split at given
    case isFalse =>
      obtain ⟨rest, same, single⟩ := behind given
      exact sizes_cons (.unit a b c d code known) rfl (sizes_eq same single)
    case isTrue =>
      split at given
      case h_2 => cases given
      case h_1 a' b' c' d' code' known' pieces =>
        split at given
        case isFalse => cases given
        case isTrue =>
          obtain ⟨rest, same, single⟩ := behind given
          exact sizes_cons (.unit a b c d code known) rfl
            (sizes_cons (.unit a' b' c' d' code' known') rfl (sizes_eq same single))

/-! ### Numerals -/

def IsDigits (text : List Char) : Prop := text ≠ [] ∧ ∀ c ∈ text, c.isDigit = true

/-- A text that does not go on with a number that stands before it. -/
def EndsNumber (rest : List Char) : Prop :=
  ∀ c ∈ rest.head?, c.isDigit = false ∧ c ≠ '.' ∧ c ≠ 'e' ∧ c ≠ 'E'

namespace Numeral

def fractionText : Option (List Char) → List Char
  | none => []
  | some digits => '.' :: digits

def exponentText : Option (Bool × List Char) → List Char
  | none => []
  | some (down, digits) => 'e' :: (if down then '-' else '+') :: digits

/-- The text is a spelling of the exponent: either mark, and a sign unless there is none to
show. -/
inductive Powers : Option (Bool × List Char) → List Char → Prop
  | none : Powers none []
  | bare {e : Char} (mark : e = 'e' ∨ e = 'E') (digits : List Char) :
      Powers (some (false, digits)) (e :: digits)
  | plus {e : Char} (mark : e = 'e' ∨ e = 'E') (digits : List Char) :
      Powers (some (false, digits)) (e :: '+' :: digits)
  | minus {e : Char} (mark : e = 'e' ∨ e = 'E') (digits : List Char) :
      Powers (some (true, digits)) (e :: '-' :: digits)

def unsigned (n : Numeral) : List Char :=
  n.whole ++ (fractionText n.fraction ++ exponentText n.exponent)

def text (n : Numeral) : List Char := if n.negative then '-' :: n.unsigned else n.unsigned

def Spelled (n : Numeral) (text : List Char) : Prop :=
  ∃ power, Powers n.exponent power ∧
    text = (if n.negative then ['-'] else []) ++ (n.whole ++ (fractionText n.fraction ++ power))

/-- Every part has digits, and there is no zero in front of others. -/
structure WellFormed (n : Numeral) : Prop where
  whole : IsDigits n.whole
  lead : n.whole.head? = some '0' → n.whole = ['0']
  fraction : ∀ digits ∈ n.fraction, IsDigits digits
  exponent : ∀ e ∈ n.exponent, IsDigits e.2

end Numeral

theorem ne_of_isDigit {d x : Char} (digit : d.isDigit = true) (other : x.isDigit = false) :
    d ≠ x := by
  rintro rfl
  rw [digit] at other
  cases other

theorem isSpace_of_isDigit {d : Char} (digit : d.isDigit = true) : Cursor.isSpace d = false := by
  have other {x : Char} (no : x.isDigit = false) : d ≠ x := ne_of_isDigit digit no
  simp [Cursor.isSpace, @other ' ' rfl, @other '\t' rfl, @other '\n' rfl, @other '\r' rfl]

theorem Numeral.powers_exponentText (exponent : Option (Bool × List Char)) :
    Powers exponent (exponentText exponent) := by
  match exponent with
  | none => exact .none
  | some (false, digits) => exact .plus (.inl rfl) digits
  | some (true, digits) => exact .minus (.inl rfl) digits

theorem Numeral.spelled_text (n : Numeral) : n.Spelled n.text := by
  refine ⟨exponentText n.exponent, powers_exponentText n.exponent, ?_⟩
  rw [text]
  split <;> rfl

theorem takeDigits_append {digits rest : List Char} (all : ∀ c ∈ digits, c.isDigit = true)
    (stops : ∀ c ∈ rest.head?, c.isDigit = false) (n : Nat) :
    takeDigits ⟨digits ++ rest, n⟩ = (digits, ⟨rest, n + digits.length⟩) := by
  have taken : (digits ++ rest).takeWhile Char.isDigit = digits := by
    rw [List.takeWhile_append_of_pos all]
    cases rest with
    | nil => simp
    | cons c rest => simp [stops c rfl]
  have dropped : (digits ++ rest).dropWhile Char.isDigit = rest := by
    rw [List.dropWhile_append_of_pos all]
    cases rest with
    | nil => simp
    | cons c rest => simp [stops c rfl]
  rw [takeDigits, taken, dropped]

theorem Numeral.Powers.head {exponent : Option (Bool × List Char)} {power : List Char}
    (powers : Powers exponent power) {rest : List Char} (ends : EndsNumber rest) :
    ∀ c ∈ (power ++ rest).head?, c.isDigit = false ∧ c ≠ '.' := by
  have marks {e : Char} (mark : e = 'e' ∨ e = 'E') : e.isDigit = false ∧ e ≠ '.' := by
    rcases mark with rfl | rfl <;> decide
  cases powers with
  | none => exact fun c head => ⟨(ends c head).1, (ends c head).2.1⟩
  | bare mark | plus mark | minus mark =>
    rintro c ⟨⟩
    exact marks mark

theorem exponentOf_powers (negative : Bool) (whole : List Char)
    (fraction : Option (List Char)) {exponent : Option (Bool × List Char)} {power : List Char}
    (powers : Numeral.Powers exponent power) (digits : ∀ e ∈ exponent, IsDigits e.2)
    {rest : List Char} (ends : EndsNumber rest) (n : Nat) :
    ∃ exponentAt stop, scanNumber.exponentOf negative whole fraction ⟨power ++ rest, n⟩ =
      (.number (Numeral.value ⟨negative, whole, fraction, exponent⟩ exponentAt stop),
        some ⟨rest, stop⟩) := by
  have digitsEnd : ∀ c ∈ rest.head?, c.isDigit = false := fun c head => (ends c head).1
  cases powers with
  | none =>
    refine ⟨n, n, ?_⟩
    cases rest with
    | nil => rfl
    | cons c rest =>
      obtain ⟨-, -, lower, upper⟩ := ends c rfl
      simp [scanNumber.exponentOf, scanNumber.plain, lower, upper]
  | bare mark places =>
    obtain ⟨given, all⟩ := digits _ rfl
    have taken := takeDigits_append all digitsEnd (n + 1)
    obtain ⟨d, places, rfl⟩ := List.exists_cons_of_ne_nil given
    have plus : d ≠ '+' := ne_of_isDigit (all d List.mem_cons_self) rfl
    have minus : d ≠ '-' := ne_of_isDigit (all d List.mem_cons_self) rfl
    refine ⟨n + 1, n + 1 + (d :: places).length, ?_⟩
    rw [List.cons_append] at taken
    simp [scanNumber.exponentOf, mark, plus, minus, taken]
  | plus mark places | minus mark places =>
    obtain ⟨given, all⟩ := digits _ rfl
    have taken := takeDigits_append all digitsEnd (n + 2)
    refine ⟨n + 2, n + 2 + places.length, ?_⟩
    simp [scanNumber.exponentOf, mark, taken, given]

theorem behind_whole (fraction : Option (List Char)) {rest : List Char}
    (ends : ∀ c ∈ rest.head?, c.isDigit = false ∧ c ≠ '.') :
    ∀ c ∈ (Numeral.fractionText fraction ++ rest).head?, c.isDigit = false := by
  intro c head
  cases fraction with
  | some digits =>
    obtain rfl : '.' = c := Option.some.inj head
    rfl
  | none => exact (ends c head).1

/-- However it is spelled, a numeral is read as itself, up to its end. -/
theorem scanNumber_numeral {n : Numeral} (formed : n.WellFormed) {power : List Char}
    (powers : Numeral.Powers n.exponent power) {rest : List Char} (ends : EndsNumber rest)
    (start : Nat) :
    ∃ exponentAt stop, scanNumber n.negative
        ⟨n.whole ++ (Numeral.fractionText n.fraction ++ (power ++ rest)), start⟩ =
      (.number (n.value exponentAt stop), some ⟨rest, stop⟩) := by
  obtain ⟨negative, whole, fraction, exponent⟩ := n
  obtain ⟨⟨given, all⟩, lead, places, digits⟩ := formed
  dsimp only at given all lead places digits powers ⊢
  obtain ⟨d, wholes, rfl⟩ := List.exists_cons_of_ne_nil given
  have behind := powers.head ends
  have taken := takeDigits_append all (behind_whole fraction behind) start
  have first : d.isDigit = true := all d List.mem_cons_self
  have single : ¬(d = '0' ∧ (d :: wholes).length ≠ 1) := by
    rintro ⟨rfl, more⟩
    rw [lead rfl] at more
    exact more rfl
  rw [scanNumber]
  rw [List.cons_append] at taken ⊢
  dsimp only
  rw [taken, if_neg (fun none => none first)]
  dsimp only
  rw [if_neg single]
  cases fraction with
  | none =>
    rw [Numeral.fractionText, List.nil_append]
    split
    case h_1 shape => exact absurd rfl (behind '.' (by rw [shape]; rfl)).2
    case h_2 => exact exponentOf_powers negative _ none powers digits ends _
  | some decimals =>
    obtain ⟨given, all⟩ := places decimals rfl
    have taken := takeDigits_append all (fun c head => (behind c head).1)
      (start + (d :: wholes).length + 1)
    rw [Numeral.fractionText, List.cons_append]
    split
    case h_2 no => exact absurd rfl (no _)
    case h_1 shape =>
      obtain ⟨-, rfl⟩ := List.cons.inj shape
      rw [taken]
      dsimp only
      rw [if_neg fun none => given (List.isEmpty_iff.mp none)]
      exact exponentOf_powers negative _ (some decimals) powers digits ends _

end Uplift.Json
