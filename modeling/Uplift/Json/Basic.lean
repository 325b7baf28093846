import Uplift.Keyed

/-!
# JSON values

Free-form objects keep their members in ascending key order, records in field order.
-/

namespace Uplift

/-- A whole number that fits 64 bits stays whole; every other number is a double. -/
inductive Json.Number where
  | whole (n : Int)
  | double (bits : UInt64)
  deriving DecidableEq, Repr, Inhabited

inductive Json where
  | null
  | bool (b : Bool)
  | number (n : Json.Number)
  | string (s : String)
  | array (items : List Json)
  | object (members : List (String × Json))
  deriving Repr, Inhabited

namespace Json

abbrev Members := Keyed Json

def ofNat (n : Nat) : Json := .number (.whole n)

def ofInt (n : Int) : Json := .number (.whole n)

def ofFloat (x : Float) : Json := .number (.double x.toBits)

def ofOption {α : Type} (f : α → Json) : Option α → Json
  | some a => f a
  | none => .null

def ofStrings (items : List String) : Json := .array (items.map .string)

def asObject? : Json → Option Members
  | object members => some members
  | _ => none

end Json

end Uplift
