import Uplift.Collaborator.Basic

/-!
# Backups

The files that a plan wants to keep are copied below a directory of its own. Files that
are not there are left out; the first failure ends the copying.
-/

namespace Uplift.Backup

variable {σ : Type} [FileStore σ]

def location (dir : Path) (id : String) : Path := dir.join ⟨id⟩

/-- Where the copy of a file goes. -/
def destination (dir : Path) (id : String) (path : Path) : Path := (location dir id).join path

def copyOne (place : Path) (store : σ) (path : Path) : Except FileError σ := do
  match ← FileStore.read? store path with
  | none => return store
  | some content => FileStore.write store (place.join path) content

/-- Copies until one fails; what was copied before stays. -/
def copyAll (place : Path) (store : σ) : List Path → Except FileError Unit × σ
  | [] => (.ok (), store)
  | path :: rest =>
    match copyOne place store path with
    | .ok store => copyAll place store rest
    | .error e => (.error e, store)

def create (dir : Path) (p : Plan) : Call σ String := fun store =>
  let place := location dir p.id
  let (result, after) := copyAll place store p.risk.backups
  { result := ofFile (result.map fun () => place.text), after := after }

end Uplift.Backup
