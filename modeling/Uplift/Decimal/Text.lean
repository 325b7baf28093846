import Uplift.Decimal.Shortest

/-!
# Decimal text of doubles

`Layout` fixes how the digits are laid out; `fixed` rounds to a number of places.
-/

namespace Uplift.Decimal

/-- Where positional writing ends. -/
structure Layout where
  least : Int
  limit : Int

/-- Documents write `d.ddd * 10 ^ e` positionally from `e = -5` up to `e = 15`. -/
def Layout.document : Layout := ⟨-5, 16⟩

def zeros (n : Nat) : List Char := List.replicate n '0'

def digitsOf (n : Nat) : List Char := Nat.toDigits 10 n

/-- Digits with a point after `lead` of them; a whole number ends in `.0`. -/
def positional (digits : List Char) (lead : Int) : List Char :=
  if lead ≤ 0 then '0' :: '.' :: zeros (-lead).toNat ++ digits
  else
    let n := lead.toNat
    if digits.length ≤ n then digits ++ zeros (n - digits.length) ++ ['.', '0']
    else digits.take n ++ '.' :: digits.drop n

def scientific (digits : List Char) (exponent : Int) : List Char :=
  let head :=
    match digits with
    | [] => ['0']
    | [d] => [d]
    | d :: rest => d :: '.' :: rest
  let sign := if exponent < 0 then '-' else '+'
  head ++ 'e' :: sign :: digitsOf exponent.natAbs

def Layout.write (layout : Layout) (d : Numeral) : List Char :=
  let digits := digitsOf d.digits
  let exponent := d.exponent + digits.length - 1
  if d.digits = 0 then ['0', '.', '0']
  else if layout.least ≤ exponent ∧ exponent < layout.limit then positional digits (exponent + 1)
  else scientific digits exponent

/-- The document text of a double; none for what has no number. -/
def text? (bits : UInt64) : Option (List Char) :=
  (Binary.ofBits? bits).map fun b =>
    let body := Layout.document.write (if b.mantissa = 0 then ⟨0, 0⟩ else shortest b)
    if isNegative bits then '-' :: body else body

/-- Rounds to the nearest integer, a half to the even one. -/
def Ratio.round (r : Ratio) : Nat :=
  let q := r.num / r.den
  let rest := 2 * (r.num % r.den)
  if rest < r.den then q
  else if r.den < rest then q + 1
  else if q % 2 = 0 then q else q + 1

/-- A double with exactly one decimal place. -/
def fixedOne (bits : UInt64) : String :=
  let sign := if isNegative bits then "-" else ""
  match Binary.ofBits? bits with
  | some b =>
    let tenths := (b.value.scale 10 1).round
    s!"{sign}{tenths / 10}.{tenths % 10}"
  | none => if bits &&& 0xfffffffffffff == 0 then sign ++ "inf" else "NaN"

end Uplift.Decimal
