import Uplift.Files.Filter

/-!
# File stores

A store holds the files of a project under paths relative to its root. An operation that
fails leaves the store as it was.
-/

namespace Uplift

class FileStore (σ : Type) where
  read : σ → Path → Except FileError String
  write : σ → Path → String → Except FileError σ
  /-- Takes a file away; a file that is not there counts as taken away. -/
  remove : σ → Path → Except FileError σ
  isFile : σ → Path → Bool
  /-- The files that take part in a request, in ascending order. -/
  list : σ → Request → Except FileError (List Path)

namespace FileStore

variable {σ : Type} [FileStore σ]

/-- The content of a file, none if there is no such file. -/
def read? (store : σ) (path : Path) : Except FileError (Option String) :=
  match read store path with
  | .ok content => .ok (some content)
  | .error (.missing _) => .ok none
  | .error e => .error e

/-- Gives a file this content, or takes it away. -/
def put (store : σ) (path : Path) : Option String → Except FileError σ
  | some content => write store path content
  | none => remove store path

end FileStore

end Uplift
