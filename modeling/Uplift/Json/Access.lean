import Uplift.Json.Basic

/-!
# Looking into JSON values

Lenient readers: a member that is missing, or of another kind than asked for, counts as
not given, and the reader falls back on a default.
-/

namespace Uplift.Json

/-- A member of an object, null if there is none. -/
def get (j : Json) (key : String) : Json :=
  match j with
  | object members => (Keyed.get? key members).getD null
  | _ => null

def has (j : Json) (key : String) : Bool :=
  match j with
  | object members => Keyed.has key members
  | _ => false

def members : Json → Members
  | object members => members
  | _ => []

def items : Json → List Json
  | array items => items
  | _ => []

def string? : Json → Option String
  | string s => some s
  | _ => none

def asString (j : Json) : String := j.string?.getD ""

def nat? : Json → Option Nat
  | number (.whole n) => some n.toNat
  | _ => none

def asInt : Json → Int
  | number (.whole n) => n
  | _ => 0

def asFloat : Json → Float
  | number (.whole (.ofNat n)) => n.toUInt64.toFloat
  | number (.whole (.negSucc n)) => -(n + 1).toUInt64.toFloat
  | number (.double bits) => Float.ofBits bits
  | _ => 0.0

def str? (j : Json) (key : String) : Option String := (j.get key).string?

def str (j : Json) (key : String) (fallback : String := "") : String :=
  (j.str? key).getD fallback

def nat (j : Json) (key : String) (fallback : Nat := 0) : Nat := (j.get key).nat?.getD fallback

def flag (j : Json) (key : String) (fallback : Bool := false) : Bool :=
  match j.get key with
  | bool b => b
  | _ => fallback

def list (j : Json) (key : String) : List Json := (j.get key).items

def strs (j : Json) (key : String) : List String := (j.list key).map asString

/-- A label, or the default where it is none. -/
def labelled {α : Type} (j : Json) (key : String) (ofLabel? : String → Option α)
    (fallback : α) : α :=
  ((j.str? key).bind ofLabel?).getD fallback

def strings (j : Json) (key : String) : Keyed String :=
  Keyed.ofList ((j.get key).members.map fun (k, v) => (k, v.asString))

def floats (j : Json) (key : String) : Keyed Float :=
  Keyed.ofList ((j.get key).members.map fun (k, v) => (k, v.asFloat))

end Uplift.Json
