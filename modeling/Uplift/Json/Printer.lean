import Uplift.Decimal.Text
import Uplift.Json.Basic

/-!
# Writing JSON

`compact` writes without blanks. `pretty` puts every item on a line of its own, two
spaces deeper than what holds it; empty containers stay on one line.
-/

namespace Uplift.Json

def hexDigit (n : Nat) : Char := (Nat.toDigits 16 n).headD '0'

/-- Quotes, backslashes and controls are escaped, everything else is written as it is. -/
def escapeChar (c : Char) : List Char :=
  if c = '"' then ['\\', '"']
  else if c = '\\' then ['\\', '\\']
  else if c = '\n' then ['\\', 'n']
  else if c = '\r' then ['\\', 'r']
  else if c = '\t' then ['\\', 't']
  else if c.toNat = 0x8 then ['\\', 'b']
  else if c.toNat = 0xc then ['\\', 'f']
  else if c.toNat < 0x20 then
    ['\\', 'u', '0', '0', hexDigit (c.toNat / 16), hexDigit (c.toNat % 16)]
  else [c]

def quote (s : String) : List Char := '"' :: s.toList.flatMap escapeChar ++ ['"']

def Number.text : Number → List Char
  | .whole (.ofNat n) => Nat.toDigits 10 n
  | .whole (.negSucc n) => '-' :: Nat.toDigits 10 (n + 1)
  | .double bits => (Decimal.text? bits).getD ['n', 'u', 'l', 'l']

def boolText (b : Bool) : List Char := if b then ['t', 'r', 'u', 'e'] else ['f', 'a', 'l', 's', 'e']

def indentation (depth : Nat) : List Char := '\n' :: List.replicate (2 * depth) ' '

mutual

def prettyChars (depth : Nat) : Json → List Char
  | null => ['n', 'u', 'l', 'l']
  | bool b => boolText b
  | number n => n.text
  | string s => quote s
  | array [] => ['[', ']']
  | array (item :: items) =>
    '[' :: indentation (depth + 1) ++ prettyChars (depth + 1) item ++
      prettyItems depth items
  | object [] => ['\x7b', '\x7d']
  | object ((key, value) :: members) =>
    '\x7b' :: indentation (depth + 1) ++ quote key ++ ':' :: ' ' ::
      prettyChars (depth + 1) value ++ prettyMembers depth members

def prettyItems (depth : Nat) : List Json → List Char
  | [] => indentation depth ++ [']']
  | item :: items =>
    ',' :: indentation (depth + 1) ++ prettyChars (depth + 1) item ++ prettyItems depth items

def prettyMembers (depth : Nat) : List (String × Json) → List Char
  | [] => indentation depth ++ ['\x7d']
  | (key, value) :: members =>
    ',' :: indentation (depth + 1) ++ quote key ++ ':' :: ' ' ::
      prettyChars (depth + 1) value ++ prettyMembers depth members

end

mutual

def compactChars : Json → List Char
  | null => ['n', 'u', 'l', 'l']
  | bool b => boolText b
  | number n => n.text
  | string s => quote s
  | array [] => ['[', ']']
  | array (item :: items) => '[' :: compactChars item ++ compactItems items
  | object [] => ['\x7b', '\x7d']
  | object ((key, value) :: members) =>
    '\x7b' :: quote key ++ ':' :: compactChars value ++ compactMembers members

def compactItems : List Json → List Char
  | [] => [']']
  | item :: items => ',' :: compactChars item ++ compactItems items

def compactMembers : List (String × Json) → List Char
  | [] => ['\x7d']
  | (key, value) :: members =>
    ',' :: quote key ++ ':' :: compactChars value ++ compactMembers members

end

def pretty (v : Json) : String := String.ofList (prettyChars 0 v)

def compact (v : Json) : String := String.ofList (compactChars v)

end Uplift.Json
