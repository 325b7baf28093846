import Uplift.Collaborator.Basic
import Uplift.Json.Decode
import Uplift.Json.Printer

/-!
# JSON documents in a store

Manifests and build configurations are files that hold one JSON object. They are written
with sorted keys, two spaces of indentation and a newline at the end.
-/

namespace Uplift.JsonFile

variable {σ : Type} [FileStore σ]

/-- Reads the object that a text holds. -/
def parse (path : Path) (content : String) : Except CollaboratorError Json.Members :=
  match Json.parse? content with
  | .ok (.object members) => .ok members
  | .ok _ => .error (.badJson path "top level is not an object")
  | .error fault => .error (.badJson path (fault.message content))

def read (store : σ) (path : Path) : Except CollaboratorError Json.Members := do
  parse path (← ofFile (FileStore.read store path))

/-- Reads an object; a file that is not there holds an empty one. -/
def readOrEmpty (store : σ) (path : Path) : Except CollaboratorError Json.Members := do
  match ← ofFile (FileStore.read? store path) with
  | some content => parse path content
  | none => return []

def render (members : Json.Members) : String := (Json.object members).pretty ++ "\n"

def write (store : σ) (path : Path) (members : Json.Members) : Except CollaboratorError σ :=
  ofFile (FileStore.write store path (render members))

end Uplift.JsonFile
