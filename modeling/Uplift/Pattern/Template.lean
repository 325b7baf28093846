import Uplift.Pattern.Match

/-!
# Templates

`$N` and `${N}` stand for the text of a group and `$$` for a dollar sign. A dollar sign
that begins none of these stands for itself, and so do braces around anything but a
number; a missing group is empty.
-/

namespace Uplift.Template

/-- The largest group number that can be written in braces. -/
def maxIndex : Nat := 18446744073709551615

def digitValue (c : Char) : Nat := c.toNat - '0'.toNat

def valueOf (digits : List Char) : Nat := digits.foldl (fun n d => n * 10 + digitValue d) 0

/-- The number in braces: digits, after a plus sign if there is one. -/
def indexOf? (body : List Char) : Option Nat :=
  let digits :=
    match body with
    | '+' :: rest => rest
    | body => body
  if ¬digits.isEmpty ∧ digits.all Char.isDigit ∧ valueOf digits ≤ maxIndex then
    some (valueOf digits)
  else none

/-- Reads digits as far as they go; a number too large stays at the largest. -/
def bareIndex (digits : List Char) : Nat :=
  digits.foldl (fun n d => min (min (n * 10) maxIndex + digitValue d) maxIndex) 0

def expandFrom (m : Match) : Nat → List Char → List Char
  | 0, _ => []
  | _, [] => []
  | fuel + 1, c :: rest =>
    if c ≠ '$' then c :: expandFrom m fuel rest
    else
      match rest with
      | [] => ['$']
      | d :: tail =>
        if d = '$' then '$' :: expandFrom m fuel tail
        else if d = '\x7b' then
          let body := tail.takeWhile (· ≠ '\x7d')
          match tail.dropWhile (· ≠ '\x7d') with
          | [] => '$' :: '\x7b' :: body
          | _ :: after =>
            match indexOf? body with
            | some index => (m.groupText index).toList ++ expandFrom m fuel after
            | none => '$' :: '\x7b' :: body ++ '\x7d' :: expandFrom m fuel after
        else if d.isDigit then
          let digits := rest.takeWhile Char.isDigit
          (m.groupText (bareIndex digits)).toList ++
            expandFrom m fuel (rest.dropWhile Char.isDigit)
        else '$' :: expandFrom m fuel rest

/-- The text that a template gives for a match. Every call takes a character, so the
length of the template bounds their number. -/
def expand (template : String) (m : Match) : String :=
  String.ofList (expandFrom m (template.toList.length + 1) template.toList)

end Uplift.Template
