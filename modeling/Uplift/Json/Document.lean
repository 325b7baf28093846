import Uplift.Json.Basic
import Uplift.Json.Fault
import Uplift.Text.Cut

/-!
# JSON text as a document

`Document.read` reads a text as far as it is one. Faults stay in the tree where they
occur, so that whoever decodes it meets faults and misfits in the order of the text.
A value nobody asks for is only passed over, which forgives numbers out of range, lone
surrogates and any depth; where the two ways differ in what they report, `Break` holds both.
-/

namespace Uplift.Json

/-- Where a text stops being a document, as told by who reads the value and by who
passes over it. -/
structure Break where
  read : Fault
  skip : Fault
  deriving DecidableEq, Repr

def Break.same (kind : FaultKind) (consumed : Nat) : Break := ⟨⟨kind, consumed⟩, ⟨kind, consumed⟩⟩

/-- What is left of a text and how many bytes came before. -/
structure Cursor where
  rest : List Char
  consumed : Nat
  deriving Repr, Inhabited

inductive Document where
  | null
  | bool (b : Bool)
  | number (value : Except Fault Number)
  | string (value : Except Fault String)
  | array (items : List (Nat × Document)) (stop : Option Break)
  /-- `body` is the text behind the opening brace. -/
  | object (body : Cursor) (members : List (Except Fault String × Nat × Document))
    (stop : Option Break)
  | broken (b : Break)
  deriving Inhabited

/-- A document and the bytes before it. -/
abbrev Placed := Nat × Document

namespace Cursor

def ofString (s : String) : Cursor := ⟨s.toList, 0⟩

def isSpace (c : Char) : Bool := c = ' ' || c = '\t' || c = '\n' || c = '\r'

def skipSpace : Cursor → Cursor
  | ⟨rest, n⟩ => go rest n
where
  go : List Char → Nat → Cursor
    | [], n => ⟨[], n⟩
    | c :: rest, n => if isSpace c then go rest (n + 1) else ⟨c :: rest, n⟩

/-- The bytes consumed once the next one has been looked at. -/
def peeked (c : Cursor) : Nat := if c.rest.isEmpty then c.consumed else c.consumed + 1

end Cursor

/-! ### Strings -/

def hexValue? (c : Char) : Option Nat :=
  if '0' ≤ c ∧ c ≤ '9' then some (c.toNat - '0'.toNat)
  else if 'a' ≤ c ∧ c ≤ 'f' then some (c.toNat - 'a'.toNat + 10)
  else if 'A' ≤ c ∧ c ≤ 'F' then some (c.toNat - 'A'.toNat + 10)
  else none

def hex4? (a b c d : Char) : Option Nat := do
  let a ← hexValue? a
  let b ← hexValue? b
  let c ← hexValue? c
  let d ← hexValue? d
  return ((a * 16 + b) * 16 + c) * 16 + d

def simpleEscape? (c : Char) : Option Char :=
  if c = '"' then some '"'
  else if c = '\\' then some '\\'
  else if c = '/' then some '/'
  else if c = 'b' then some '\x08'
  else if c = 'f' then some '\x0c'
  else if c = 'n' then some '\n'
  else if c = 'r' then some '\r'
  else if c = 't' then some '\t'
  else none

/-- A string read up to its closing quote, or up to what breaks it. -/
inductive Scanned where
  | closed (value : Except Fault (List Char)) (after : Cursor)
  | broken (b : Break)

namespace Scanned

def push (c : Char) : Scanned → Scanned
  | closed value after => closed (value.map (c :: ·)) after
  | broken b => broken b

/-- The string holds something that cannot be read but can be passed over. -/
def flaw (kind : FaultKind) (consumed : Nat) : Scanned → Scanned
  | closed _ after => closed (.error ⟨kind, consumed⟩) after
  | broken b => broken { b with read := ⟨kind, consumed⟩ }

end Scanned

/-- Four hexadecimal digits cannot follow: either the text is too short or they are none. -/
def badHex (rest : List Char) (n : Nat) : Scanned :=
  let size := Text.byteSize (rest.take 4)
  if size < 4 then .broken (.same .eofString (n + size))
  else .broken (.same .invalidEscape (n + 4))

def isHighSurrogate (n : Nat) : Bool := 0xd800 ≤ n && n ≤ 0xdbff

def isLowSurrogate (n : Nat) : Bool := 0xdc00 ≤ n && n ≤ 0xdfff

def scanString : List Char → Nat → Scanned
  | [], n => .broken (.same .eofString n)
  | c :: rest, n =>
    if c = '"' then .closed (.ok []) ⟨rest, n + 1⟩
    else if c = '\\' then
      match rest with
      | [] => .broken (.same .eofString (n + 1))
      | e :: rest =>
        if e = 'u' then
          match rest with
          | h1 :: h2 :: h3 :: h4 :: rest =>
            match hex4? h1 h2 h3 h4 with
            | none => badHex (h1 :: h2 :: h3 :: h4 :: rest) (n + 2)
            | some code =>
              if isLowSurrogate code then (scanString rest (n + 6)).flaw .loneSurrogate (n + 6)
              else if isHighSurrogate code then
                match rest with
                | [] => .broken (.same .eofString (n + 6))
                | [b] =>
                  if b = '\\' then .broken (.same .eofString (n + 7))
                  else (scanString [b] (n + 6)).flaw .unexpectedHexEnd (n + 7)
                | b :: u :: tail =>
                  if b ≠ '\\' then
                    (scanString (b :: u :: tail) (n + 6)).flaw .unexpectedHexEnd (n + 7)
                  else if u ≠ 'u' then
                    (scanString (b :: u :: tail) (n + 6)).flaw .unexpectedHexEnd (n + 8)
                  else
                    match tail with
                    | g1 :: g2 :: g3 :: g4 :: tail =>
                      match hex4? g1 g2 g3 g4 with
                      | none => badHex (g1 :: g2 :: g3 :: g4 :: tail) (n + 8)
                      | some low =>
                        if isLowSurrogate low then
                          (scanString tail (n + 12)).push
                            (Char.ofNat (0x10000 + (code - 0xd800) * 0x400 + (low - 0xdc00)))
                        else (scanString tail (n + 12)).flaw .loneSurrogate (n + 12)
                    | short => badHex short (n + 8)
              else (scanString rest (n + 6)).push (Char.ofNat code)
          | short => badHex short (n + 2)
        else
          match simpleEscape? e with
          | some x => (scanString rest (n + 2)).push x
          | none => .broken (.same .invalidEscape (n + 2))
    else if c.toNat < 0x20 then .broken ⟨⟨.controlCharacter, n + 1⟩, ⟨.controlCharacter, n⟩⟩
    else (scanString rest (n + c.utf8Size)).push c
  termination_by structural cs => cs

/-! ### Numbers -/

def maxWord : Nat := 18446744073709551615

/-- Decimal digits gathered into a significand as long as it fits a word; `dropped`
counts the digits that did not. -/
def gather : List Char → Nat → Nat → Nat × Nat
  | [], significand, dropped => (significand, dropped)
  | d :: rest, significand, dropped =>
    let next := significand * 10 + (d.toNat - '0'.toNat)
    if dropped = 0 ∧ next ≤ maxWord then gather rest next 0
    else gather rest significand (dropped + 1)

def power10 (n : Nat) : Float := Float.ofScientific 1 false n

/-- A significand scaled by a power of ten, one rounding per step; none on overflow. -/
def scaleBy (fuel : Nat) (f : Float) (exponent : Int) : Option Float :=
  if 0 ≤ exponent then
    if exponent ≤ 308 then
      let scaled := f * power10 exponent.toNat
      if scaled.isInf then none else some scaled
    else if f == 0.0 then some f
    else none
  else if -308 ≤ exponent then some (f / power10 exponent.natAbs)
  else if f == 0.0 then some f
  else
    match fuel with
    | 0 => some 0.0
    | fuel + 1 => scaleBy fuel (f / power10 308) (exponent + 308)

def maxExponent : Nat := 2147483647

/-- The digits of a number as written. -/
structure Numeral where
  negative : Bool
  whole : List Char
  fraction : Option (List Char)
  exponent : Option (Bool × List Char)

/-- How many exponent digits are read before the exponent no longer fits. -/
def exponentOverflow? : List Char → Nat → Nat → Option Nat
  | [], _, _ => none
  | d :: rest, value, count =>
    let next := value * 10 + (d.toNat - '0'.toNat)
    if maxExponent < next then some (count + 1) else exponentOverflow? rest next (count + 1)

def signed (negative : Bool) (f : Float) : Number := .double (if negative then -f else f).toBits

/-- The value of a numeral whose exponent digits start after `exponentAt` bytes and that
ends after `stop` bytes. -/
def Numeral.value (n : Numeral) (exponentAt stop : Nat) : Except Fault Number :=
  let (significand, dropped) := gather n.whole 0 0
  match n.fraction, n.exponent with
  | none, none =>
    if dropped = 0 ∧ ¬n.negative then .ok (.whole significand)
    else if dropped = 0 ∧ significand ≠ 0 ∧ significand ≤ 9223372036854775808 then .ok (.whole (-significand))
    else finish significand dropped
  | _, _ =>
    let (significand, point) :=
      match n.fraction with
      | none => (significand, (dropped : Int))
      | some digits =>
        let (s, lost) := gather digits significand 0
        (s, (dropped : Int) - ((digits.length : Int) - lost))
    match n.exponent with
    | none => finish significand point
    | some (down, digits) =>
      match exponentOverflow? digits 0 0 with
      | some count =>
        if significand ≠ 0 ∧ ¬down then .error ⟨.numberOutOfRange, exponentAt + count⟩
        else .ok (signed n.negative 0.0)
      | none =>
        let e : Int := (gather digits 0 0).1
        finish significand (if down then point - e else point + e)
where
  finish (significand : Nat) (exponent : Int) : Except Fault Number :=
    match scaleBy 8 significand.toUInt64.toFloat exponent with
    | some f => .ok (signed n.negative f)
    | none => .error ⟨.numberOutOfRange, stop⟩

/-- The digits at the cursor. -/
def takeDigits (c : Cursor) : List Char × Cursor :=
  let digits := c.rest.takeWhile Char.isDigit
  (digits, ⟨c.rest.dropWhile Char.isDigit, c.consumed + digits.length⟩)

/-- A number whose sign, if any, is behind the cursor. -/
def scanNumber (negative : Bool) (c : Cursor) : Document × Option Cursor :=
  match c.rest with
  | [] => (.broken ⟨⟨.eofValue, c.consumed⟩, ⟨.invalidNumber, c.consumed⟩⟩, none)
  | d :: _ =>
    if ¬d.isDigit then (.broken (.same .invalidNumber (c.consumed + 1)), none)
    else
      let (whole, c) := takeDigits c
      if d = '0' ∧ whole.length ≠ 1 then
        (.broken (.same .invalidNumber (c.consumed - whole.length + 2)), none)
      else
        match c.rest with
        | '.' :: rest =>
          let (fraction, c) := takeDigits ⟨rest, c.consumed + 1⟩
          if fraction.isEmpty then
            let kind := if c.rest.isEmpty then .eofValue else .invalidNumber
            (.broken ⟨⟨kind, c.peeked⟩, ⟨.invalidNumber, c.peeked⟩⟩, none)
          else exponentOf whole (some fraction) c
        | _ => exponentOf whole none c
where
  exponentOf (whole : List Char) (fraction : Option (List Char)) (c : Cursor) :
      Document × Option Cursor :=
    match c.rest with
    | e :: rest =>
      if e = 'e' ∨ e = 'E' then
        let start : Cursor := ⟨rest, c.consumed + 1⟩
        let (down, start) : Bool × Cursor :=
          match rest with
          | '+' :: rest => (false, ⟨rest, c.consumed + 2⟩)
          | '-' :: rest => (true, ⟨rest, c.consumed + 2⟩)
          | _ => (false, start)
        let (digits, stop) := takeDigits start
        if digits.isEmpty then
          let kind := if start.rest.isEmpty then .eofValue else .invalidNumber
          (.broken ⟨⟨kind, start.peeked⟩, ⟨.invalidNumber, start.peeked⟩⟩, none)
        else
          let numeral : Numeral := ⟨negative, whole, fraction, some (down, digits)⟩
          (.number (numeral.value start.consumed stop.consumed), some stop)
      else plain whole fraction c
    | [] => plain whole fraction c
  plain (whole : List Char) (fraction : Option (List Char)) (c : Cursor) :
      Document × Option Cursor :=
    let numeral : Numeral := ⟨negative, whole, fraction, none⟩
    (.number (numeral.value c.consumed c.consumed), some c)

/-! ### Values -/

/-- The rest of a literal such as `null` after its first letter. -/
def scanIdent (d : Document) : List Char → Cursor → Document × Option Cursor
  | [], c => (d, some c)
  | e :: expected, c =>
    match c.rest with
    | [] => (.broken (.same .eofValue c.consumed), none)
    | x :: rest =>
      if x = e then scanIdent d expected ⟨rest, c.consumed + 1⟩
      else (.broken (.same .expectedIdent (c.consumed + 1)), none)

mutual

def readValue : Nat → Cursor → Placed × Option Cursor
  | 0, c => ((c.consumed, .broken (.same .eofValue c.consumed)), none)
  | fuel + 1, c =>
    let c := c.skipSpace
    let start := c.consumed
    let placed (r : Document × Option Cursor) : Placed × Option Cursor := ((start, r.1), r.2)
    match c.rest with
    | [] => placed (.broken (.same .eofValue start), none)
    | x :: rest =>
      let next : Cursor := ⟨rest, start + 1⟩
      if x = 'n' then placed (scanIdent .null ['u', 'l', 'l'] next)
      else if x = 't' then placed (scanIdent (.bool true) ['r', 'u', 'e'] next)
      else if x = 'f' then placed (scanIdent (.bool false) ['a', 'l', 's', 'e'] next)
      else if x = '-' then placed (scanNumber true next)
      else if x.isDigit then placed (scanNumber false c)
      else if x = '"' then
        match scanString rest (start + 1) with
        | .closed value after => placed (.string (value.map String.ofList), some after)
        | .broken b => placed (.broken b, none)
      else if x = '[' then
        let (items, stop, after) := readItems fuel true next
        placed (.array items stop, after)
      else if x = '\x7b' then
        let (members, stop, after) := readMembers fuel true next
        placed (.object next members stop, after)
      else placed (.broken (.same .expectedValue (start + 1)), none)

/-- Items up to the closing bracket. -/
def readItems : Nat → Bool → Cursor → List Placed × Option Break × Option Cursor
  | 0, _, c => ([], some (.same .eofList c.consumed), none)
  | fuel + 1, first, c =>
    let c := c.skipSpace
    let item (c : Cursor) : List Placed × Option Break × Option Cursor :=
      match readValue fuel c with
      | (d, none) => ([d], none, none)
      | (d, some c) =>
        let (items, stop, after) := readItems fuel false c
        (d :: items, stop, after)
    match c.rest with
    | [] => ([], some (.same .eofList c.consumed), none)
    | x :: rest =>
      if x = ']' then ([], none, some ⟨rest, c.consumed + 1⟩)
      else if first then item c
      else if x = ',' then
        let c := (⟨rest, c.consumed + 1⟩ : Cursor).skipSpace
        match c.rest with
        | [] => ([], some (.same .eofValue c.consumed), none)
        | y :: _ =>
          if y = ']' then
            ([], some ⟨⟨.trailingComma, c.peeked⟩, ⟨.expectedValue, c.peeked⟩⟩, none)
          else item c
      else ([], some (.same .expectedListEnd c.peeked), none)

/-- Members up to the closing brace. -/
def readMembers :
    Nat → Bool → Cursor → List (Except Fault String × Placed) × Option Break × Option Cursor
  | 0, _, c => ([], some (.same .eofObject c.consumed), none)
  | fuel + 1, first, c =>
    let c := c.skipSpace
    let member (c : Cursor) :
        List (Except Fault String × Placed) × Option Break × Option Cursor :=
      match scanString c.rest.tail (c.consumed + 1) with
      | .broken b => ([], some b, none)
      | .closed key after =>
        let key := key.map String.ofList
        let c := after.skipSpace
        match c.rest with
        | [] => ([(key, c.consumed, .broken (.same .eofObject c.consumed))], none, none)
        | x :: rest =>
          if x ≠ ':' then ([(key, c.consumed, .broken (.same .expectedColon c.peeked))], none, none)
          else
            match readValue fuel ⟨rest, c.consumed + 1⟩ with
            | (d, none) => ([(key, d)], none, none)
            | (d, some c) =>
              let (members, stop, after) := readMembers fuel false c
              ((key, d) :: members, stop, after)
    match c.rest with
    | [] => ([], some (.same .eofObject c.consumed), none)
    | x :: rest =>
      if x = '\x7d' then ([], none, some ⟨rest, c.consumed + 1⟩)
      else if first then
        if x = '"' then member c else ([], some (.same .keyMustBeString c.peeked), none)
      else if x = ',' then
        let c := (⟨rest, c.consumed + 1⟩ : Cursor).skipSpace
        match c.rest with
        | [] => ([], some ⟨⟨.eofValue, c.consumed⟩, ⟨.eofObject, c.consumed⟩⟩, none)
        | y :: _ =>
          if y = '"' then member c
          else if y = '\x7d' then
            ([], some ⟨⟨.trailingComma, c.peeked⟩, ⟨.keyMustBeString, c.peeked⟩⟩, none)
          else ([], some (.same .keyMustBeString c.peeked), none)
      else ([], some (.same .expectedObjectEnd c.peeked), none)

end

/-- A text as a document, and what is wrong after its value. -/
structure Text where
  root : Placed
  trailing : Option Fault

/-- Reads the value at a cursor. Every value, item and member takes at least one character,
so the length of the text bounds the nesting of calls. -/
def readAt (c : Cursor) : Placed × Option Cursor := readValue (2 * c.rest.length + 2) c

/-- Reads a whole text. -/
def Text.read (s : String) : Text :=
  match readAt (.ofString s) with
  | (root, none) => ⟨root, none⟩
  | (root, some after) =>
    let c := after.skipSpace
    ⟨root, if c.rest.isEmpty then none else some ⟨.trailingCharacters, c.peeked⟩⟩

end Uplift.Json
