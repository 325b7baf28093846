/-!
# Shortest decimals of binary fractions

A finite double is `mantissa * 2 ^ exponent`. `shortest` picks the decimal with the
fewest digits among those that read back as it, and of these the nearest.
-/

namespace Uplift.Decimal

/-- The magnitude of a finite double. Below a power of two the next double is only
half as far away as above it; `narrow` says so. -/
structure Binary where
  mantissa : Nat
  exponent : Int
  narrow : Bool
  deriving DecidableEq, Repr

def isNegative (bits : UInt64) : Bool := bits >>> 63 == 1

/-- None for infinities and for what is not a number. -/
def Binary.ofBits? (bits : UInt64) : Option Binary :=
  let scale := ((bits >>> 52) &&& 0x7ff).toNat
  let fraction := (bits &&& 0xfffffffffffff).toNat
  if scale = 0x7ff then none
  else if scale = 0 then some ⟨fraction, -1074, false⟩
  else some ⟨fraction + 0x10000000000000, scale - 1075, fraction == 0 && scale > 1⟩

/-- A quotient of natural numbers. -/
structure Ratio where
  num : Nat
  den : Nat

namespace Ratio

def scale (r : Ratio) (base : Nat) : Int → Ratio
  | .ofNat k => ⟨r.num * Nat.pow base k, r.den⟩
  | .negSucc k => ⟨r.num, r.den * Nat.pow base (k + 1)⟩

def floor (r : Ratio) : Nat := r.num / r.den

def le (a b : Ratio) : Bool := a.num * b.den ≤ b.num * a.den

def lt (a b : Ratio) : Bool := a.num * b.den < b.num * a.den

end Ratio

/-- `digits * 10 ^ exponent`. -/
structure Numeral where
  digits : Nat
  exponent : Int
  deriving DecidableEq, Repr

def digitCount (n : Nat) : Nat := (Nat.toDigits 10 n).length

/-- The exponent of the leading decimal digit of a positive ratio. -/
def leading (r : Ratio) : Int :=
  if r.den ≤ r.num then digitCount r.floor - 1
  else
    match (List.range 400).find? fun k : Nat => r.den ≤ (r.scale 10 k).num with
    | some k => -(k : Int)
    | none => -400

/-- Zeros at the end of the digits move into the exponent. -/
def Numeral.trim (fuel : Nat) (d : Numeral) : Numeral :=
  match fuel with
  | 0 => d
  | fuel + 1 =>
    if d.digits ≠ 0 ∧ d.digits % 10 = 0 then
      Numeral.trim fuel ⟨d.digits / 10, d.exponent + 1⟩
    else d

/-- The ratios that read back as the double: the ends count if the mantissa is even. -/
structure Window where
  low : Ratio
  high : Ratio
  closed : Bool

def Window.holds (w : Window) (r : Ratio) : Bool :=
  if w.closed then w.low.le r && r.le w.high else w.low.lt r && r.lt w.high

def Binary.window (b : Binary) : Window :=
  let at4 (n : Nat) : Ratio := (⟨n, 1⟩ : Ratio).scale 2 (b.exponent - 2)
  { low := at4 (4 * b.mantissa - if b.narrow then 1 else 2)
    high := at4 (4 * b.mantissa + 2)
    closed := b.mantissa % 2 == 0 }

def Binary.value (b : Binary) : Ratio := (⟨b.mantissa, 1⟩ : Ratio).scale 2 b.exponent

def Numeral.ratio (d : Numeral) : Ratio := (⟨d.digits, 1⟩ : Ratio).scale 10 d.exponent

/-- The decimal with `count` digits next to the value that lies in the window. -/
def nearest? (b : Binary) (count : Nat) : Option Numeral :=
  let v := b.value
  let w := b.window
  let exponent := leading v - count + 1
  let below := (v.scale 10 (-exponent)).floor
  let lower : Numeral := ⟨below, exponent⟩
  let upper : Numeral := ⟨below + 1, exponent⟩
  match w.holds lower.ratio, w.holds upper.ratio with
  | true, false => some lower
  | false, true => some upper
  | false, false => none
  | true, true =>
    let twice : Ratio := ⟨2 * v.num, v.den⟩
    let middle : Ratio := (⟨2 * below + 1, 1⟩ : Ratio).scale 10 exponent
    if twice.lt middle then some lower
    else if middle.lt twice then some upper
    else some (if below % 2 = 0 then lower else upper)

def shortest (b : Binary) : Numeral :=
  match (List.range 17).findSome? fun k => nearest? b (k + 1) with
  | some d => d.trim 32
  | none => ⟨0, 0⟩

end Uplift.Decimal
