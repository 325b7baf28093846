import Uplift.Text.Class
import Uplift.Text.Table.Unprintable

/-!
# Quoted text for messages

A text between double quotes in which the quote, the backslash and every character
without a shape of its own are escaped.
-/

namespace Uplift.Text.Quoted

def hexDigits (n : Nat) : List Char := Nat.toDigits 16 n

def escape (c : Char) : List Char :=
  match c with
  | '"' => ['\\', '"']
  | '\\' => ['\\', '\\']
  | '\n' => ['\\', 'n']
  | '\r' => ['\\', 'r']
  | '\t' => ['\\', 't']
  | '\x00' => ['\\', '0']
  | c =>
    if inRanges Table.unprintable c.toNat then
      ['\\', 'u', '\x7b'] ++ hexDigits c.toNat ++ ['\x7d']
    else [c]

def encode (s : String) : String :=
  String.ofList ('"' :: s.toList.flatMap escape ++ ['"'])

end Uplift.Text.Quoted
