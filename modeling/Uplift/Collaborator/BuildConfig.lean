import Uplift.Collaborator.Document
import Uplift.Text.Search

/-!
# Build configurations

A step sets values in a JSON document. A key is a path of segments between dots; objects
on the way are made where they are missing. `assign` is one setting.
-/

namespace Uplift.BuildConfig

/-- The segments of a key, at least one. -/
def segments (key : String) : List String :=
  (Text.splitAll '.' key.toList).map String.ofList

/-- Goes down a path below an object and sets a value at its end. The object changes on the
way, as an empty one is put wherever a segment is missing; it is returned as it stands when the
walk ends, at the value or at a segment that holds something else. -/
def walk : List String → Json → Json.Members → Except String Unit × Json.Members
  | [], _, root => (.ok (), root)
  | [last], value, root => (.ok (), root.insert last value)
  | segment :: next :: rest, value, root =>
    let entered := if root.has segment then root else root.insert segment (.object [])
    match entered.get? segment with
    | some (.object inner) =>
      let (result, inner) := walk (next :: rest) value inner
      (result, entered.insert segment (.object inner))
    | _ => (.error segment, entered)

/-- Sets a value below an object; the error is a segment that holds something else. -/
def assign (key : String) (value : Json) (root : Json.Members) :
    Except String Unit × Json.Members :=
  walk (segments key) value root

/-- A value that is JSON counts as such, any other as a string. -/
def valueOf (raw : String) : Json :=
  match Json.parse? raw with
  | .ok value => value
  | .error _ => .string raw

/-- Sets the parameters one after another, up to one that cannot be set. -/
def setAll (params : Keyed String) (root : Json.Members) : Except String Json.Members :=
  params.foldlM (fun root (key, raw) =>
    match assign key (valueOf raw) root with
    | (.ok (), root) => .ok root
    | (.error segment, _) => .error segment) root

/-- Sets the parameters of a step in the document at its path. -/
def update {σ : Type} [FileStore σ] (s : Step) : Call σ Unit := .change fun store => do
  let root ← JsonFile.readOrEmpty store s.path
  match setAll s.params root with
  | .ok root => JsonFile.write store s.path root
  | .error segment => .error (.badJson s.path s!"'{segment}' is not an object")

end Uplift.BuildConfig
