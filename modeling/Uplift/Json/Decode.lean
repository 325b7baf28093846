import Uplift.Json.Document

/-!
# Decoding JSON documents

`Json.parse?` reads any value, nested at most 127 containers deep. A `Record` lists the
fields of a structure; `Record.decode` reads it from an object, in which unknown members
are passed over and a known one may stand once, or from an array in field order.
Whatever is wrong first in the text is what is reported.
-/

namespace Uplift.Json

/-! ### Free-form values -/

def maxDepth : Nat := 127

def stopped : Option Break → Except Fault Unit
  | none => .ok ()
  | some b => .error b.read

mutual

/-- The value of a document that may still open `depth` containers. -/
def Document.value (start depth : Nat) : Document → Except Fault Json
  | .null => .ok .null
  | .bool b => .ok (.bool b)
  | .number value => value.map .number
  | .string value => value.map .string
  | .broken b => .error b.read
  | .array items stop =>
    match depth with
    | 0 => .error ⟨.recursionLimit, start + 1⟩
    | depth + 1 => do
      let items ← Document.values depth items
      stopped stop
      return .array items
  | .object _ members stop =>
    match depth with
    | 0 => .error ⟨.recursionLimit, start + 1⟩
    | depth + 1 => do
      let members ← Document.members depth [] members
      stopped stop
      return .object members

def Document.values (depth : Nat) : List (Nat × Document) → Except Fault (List Json)
  | [] => .ok []
  | (start, d) :: rest => do
    let v ← Document.value start depth d
    let vs ← Document.values depth rest
    return v :: vs

def Document.members (depth : Nat) (sofar : Members) :
    List (Except Fault String × Nat × Document) → Except Fault Members
  | [] => .ok sofar
  | (key, start, d) :: rest => do
    let key ← key
    let v ← Document.value start depth d
    Document.members depth (Keyed.insert key v sofar) rest

end

mutual

/-- Passes over a document. -/
def Document.skip : Document → Except Fault Unit
  | .broken b => .error b.skip
  | .array items stop => do
    Document.skipItems items
    match stop with
    | none => return ()
    | some b => .error b.skip
  | .object _ members stop => do
    Document.skipMembers members
    match stop with
    | none => return ()
    | some b => .error b.skip
  | _ => .ok ()

def Document.skipItems : List (Nat × Document) → Except Fault Unit
  | [] => .ok ()
  | (_, d) :: rest => do
    Document.skip d
    Document.skipItems rest

def Document.skipMembers : List (Except Fault String × Nat × Document) → Except Fault Unit
  | [] => .ok ()
  | (_, _, d) :: rest => do
    Document.skip d
    Document.skipMembers rest

end

def parse? (text : String) : Except Fault Json := do
  let t := Text.read text
  let v ← t.root.2.value t.root.1 maxDepth
  match t.trailing with
  | none => return v
  | some f => .error f

/-! ### Typed values -/

/-- Why a document does not give the asked value: its text is faulty, or it holds
something else. -/
inductive Misfit where
  | fault (f : Fault)
  | mismatch
  deriving DecidableEq, Repr

abbrev Decoder (α : Type) := Placed → Except Misfit α

namespace Decoder

def faulty {α : Type} (f : Fault) : Except Misfit α := .error (.fault f)

/-- What is reported when another kind of value was asked for. A scalar is read before
it is rejected, a container is rejected at its first byte. -/
def reject {α : Type} : Document → Except Misfit α
  | .number (.error f) | .string (.error f) => faulty f
  | .broken b => faulty b.read
  | _ => .error .mismatch

def string : Decoder String
  | (_, .string (.ok s)) => .ok s
  | (_, d) => reject d

def bool : Decoder Bool
  | (_, .bool b) => .ok b
  | (_, d) => reject d

def natural : Decoder Nat
  | (_, .number (.ok (.whole (.ofNat n)))) => .ok n
  | (_, d) => reject d

def double : Decoder Float
  | (_, .number (.ok (.whole (.ofNat n)))) => .ok n.toUInt64.toFloat
  | (_, .number (.ok (.whole (.negSucc n)))) => .ok (-(n + 1).toUInt64.toFloat)
  | (_, .number (.ok (.double bits))) => .ok (Float.ofBits bits)
  | (_, d) => reject d

def finished : Option Break → Except Misfit Unit
  | none => .ok ()
  | some b => faulty b.read

def list {α : Type} (item : Decoder α) : Decoder (List α)
  | (_, .array items stop) => do
    let values ← items.mapM item
    finished stop
    return values
  | (_, d) => reject d

def readKey : Except Fault String → Except Misfit String
  | .ok key => .ok key
  | .error f => faulty f

/-- Whether a fault shows within a string or behind a key. -/
def isBesideValue : FaultKind → Bool
  | .eofString | .invalidEscape | .controlCharacter | .loneSurrogate | .unexpectedHexEnd
  | .expectedColon | .eofObject => true
  | _ => false

/-- What must stand behind the null of a label in an object. -/
def closeLabel (c : Cursor) : Except Misfit Unit :=
  let c := c.skipSpace
  match c.rest with
  | [] => faulty ⟨.eofObject, c.consumed⟩
  | '\x7d' :: _ => .ok ()
  | _ :: _ => faulty ⟨.expectedValue, c.consumed⟩

/-- A label: a string, or an object whose only member has the label as key and null as
value. Anything else is rejected at its first byte. -/
def label {α : Type} (ofLabel? : String → Option α) : Decoder α
  | (_, .string (.ok s)) => ofLabel s
  | (_, .string (.error f)) => faulty f
  | (start, .broken b) =>
    if isBesideValue b.read.kind || b.read.consumed = start then faulty b.read
    else faulty ⟨.expectedValue, start + 1⟩
  | (_, .object body members stop) => inObject body members stop
  | (start, _) => faulty ⟨.expectedValue, start + 1⟩
where
  ofLabel (s : String) : Except Misfit α :=
    match ofLabel? s with
    | some a => .ok a
    | none => .error .mismatch
  inObject (body : Cursor) (members : List (Except Fault String × Placed))
      (stop : Option Break) : Except Misfit α :=
    let c := body.skipSpace
    if c.rest.head? ≠ some '"' then reject (readAt c).1.2
    else
      match members, stop with
      | (key, start, d) :: _, _ => do
        let a ← ofLabel (← readKey key)
        match d with
        | .null => do
          closeLabel ⟨body.rest.drop (start + 4 - body.consumed), start + 4⟩
          return a
        | d => reject d
      | [], some b => faulty b.read
      | [], none => .error .mismatch

/-- Members with string values, keyed in ascending order. -/
def stringMap : Decoder (Keyed String)
  | (_, .object _ members stop) => do
    let entries ← members.foldlM (m := Except Misfit) (fun entries (key, d) => do
      let key ← readKey key
      let value ← string d
      return Keyed.insert key value entries) []
    finished stop
    return entries
  | (_, d) => reject d

end Decoder

/-! ### Records -/

/-- One field of a structure. `required` fields must be given. -/
structure Slot (σ : Type) where
  name : String
  read : Placed → σ → Except Misfit σ
  write : σ → Json
  required : Bool

def Slot.of {σ α : Type} (name : String) (decoder : Decoder α) (set : α → σ → σ)
    (write : σ → Json) (required : Bool) : Slot σ where
  name := name
  read d s := (decoder d).map (set · s)
  write := write
  required := required

abbrev Record (σ : Type) := List (Slot σ)

namespace Record

variable {σ : Type}

def field? (r : Record σ) (name : String) : Option (Slot σ) := r.find? (·.name = name)

/-- Reads members in the order of the text; `seen` holds the fields already given. -/
def readMembers (r : Record σ) :
    List (Except Fault String × Placed) → List String → σ → Except Misfit (List String × σ)
  | [], seen, s => .ok (seen, s)
  | (key, d) :: rest, seen, s => do
    let key ← Decoder.readKey key
    match r.field? key with
    | none =>
      match d.2.skip with
      | .error f => Decoder.faulty f
      | .ok () => readMembers r rest seen s
    | some field =>
      if key ∈ seen then .error .mismatch
      else readMembers r rest (key :: seen) (← field.read d s)

/-- Reads items in field order. -/
def readItems : Record σ → List Placed → List String → σ → Except Misfit (List String × σ)
  | _, [], seen, s => .ok (seen, s)
  | [], (start, _) :: _, _, _ => Decoder.faulty ⟨.trailingCharacters, start + 1⟩
  | field :: fields, d :: rest, seen, s => do
    readItems fields rest (field.name :: seen) (← field.read d s)

/-- What must stand behind the last item of an array that has one for each field. -/
def full : Option Break → Except Misfit Unit
  | none => .ok ()
  | some b =>
    match b.read.kind with
    | .expectedListEnd | .eofValue => Decoder.faulty ⟨.trailingCharacters, b.read.consumed⟩
    | _ => Decoder.faulty b.read

def complete (r : Record σ) (seen : List String) : Except Misfit Unit :=
  if r.all fun field => !field.required || field.name ∈ seen then .ok () else .error .mismatch

/-- Fields that are not given keep their value in `default`. -/
def decode (r : Record σ) (default : σ) : Decoder σ
  | (_, .object _ members stop) => do
    let (seen, s) ← readMembers r members [] default
    Decoder.finished stop
    complete r seen
    return s
  | (_, .array items stop) => do
    let given := items.take r.length
    let (seen, s) ← readItems r given [] default
    if given.length < r.length then do
      Decoder.finished stop
      complete r seen
      return s
    else do
      let _ ← readItems ([] : Record σ) (items.drop r.length) [] s
      full stop
      return s
  | (_, d) => Decoder.reject d

def encode (r : Record σ) (s : σ) : Json := .object (r.map fun field => (field.name, field.write s))

end Record

/-- Decodes a whole text. -/
def decodeText {α : Type} (decoder : Decoder α) (text : String) : Except Misfit α := do
  let t := Text.read text
  let a ← decoder t.root
  match t.trailing with
  | none => return a
  | some f => Decoder.faulty f

end Uplift.Json
