/-!
# Faults in JSON text

A fault says what is wrong and how many bytes were consumed when it showed. Its
message gives the line and the bytes consumed in that line.
-/

namespace Uplift.Json

inductive FaultKind where
  | eofValue
  | eofList
  | eofObject
  | eofString
  | expectedValue
  | expectedIdent
  | invalidNumber
  | numberOutOfRange
  | trailingComma
  | trailingCharacters
  | keyMustBeString
  | expectedColon
  | expectedListEnd
  | expectedObjectEnd
  | invalidEscape
  | controlCharacter
  | loneSurrogate
  | unexpectedHexEnd
  | recursionLimit
  deriving DecidableEq, Repr

structure Fault where
  kind : FaultKind
  consumed : Nat
  deriving DecidableEq, Repr

namespace FaultKind

/-- Whether the text ended too early. -/
def isEof : FaultKind → Bool
  | eofValue | eofList | eofObject | eofString => true
  | _ => false

def text : FaultKind → String
  | eofValue => "EOF while parsing a value"
  | eofList => "EOF while parsing a list"
  | eofObject => "EOF while parsing an object"
  | eofString => "EOF while parsing a string"
  | expectedValue => "expected value"
  | expectedIdent => "expected ident"
  | invalidNumber => "invalid number"
  | numberOutOfRange => "number out of range"
  | trailingComma => "trailing comma"
  | trailingCharacters => "trailing characters"
  | keyMustBeString => "key must be a string"
  | expectedColon => "expected `:`"
  | expectedListEnd => "expected `,` or `]`"
  | expectedObjectEnd => "expected `,` or `\x7d`"
  | invalidEscape => "invalid escape"
  | controlCharacter => "control character (\\u0000-\\u001F) found while parsing a string"
  | loneSurrogate => "lone leading surrogate in hex escape"
  | unexpectedHexEnd => "unexpected end of hex escape"
  | recursionLimit => "recursion limit exceeded"

end FaultKind

/-- Line, from one, and bytes since its start after `consumed` bytes of a text. -/
def lineColumn : List Char → Nat → Nat × Nat
  | cs, consumed => go cs consumed 1 0
where
  go : List Char → Nat → Nat → Nat → Nat × Nat
    | [], n, line, column => (line, column + n)
    | c :: rest, n, line, column =>
      if n < c.utf8Size then (line, column + n)
      else if c = '\n' then go rest (n - 1) (line + 1) 0
      else go rest (n - c.utf8Size) line (column + c.utf8Size)

def Fault.message (f : Fault) (text : String) : String :=
  let (line, column) := lineColumn text.toList f.consumed
  s!"{f.kind.text} at line {line} column {column}"

end Uplift.Json
