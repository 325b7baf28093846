import Uplift.Files.Error
import Uplift.Files.TestFile
import Uplift.Request

/-!
# Which files take part

A file takes part if an include glob accepts it, or there is none, if no exclude glob
accepts it, and if it is no test file unless tests take part.
-/

namespace Uplift

structure PathFilter where
  included : List Glob := []
  excluded : List Glob := []
  withTests : Bool := false
  deriving DecidableEq, Repr, Inhabited

namespace PathFilter

def compile (globs : List String) : Except FileError (List Glob) :=
  globs.mapM fun g =>
    match Glob.compile g with
    | .ok glob => .ok glob
    | .error e => .error (.badGlob g e)

def ofRequest (r : Request) : Except FileError PathFilter := do
  let included ← compile r.included
  let excluded ← compile r.excluded
  return { included, excluded, withTests := r.includeTests }

def accepts (f : PathFilter) (p : Path) : Bool :=
  (f.included.isEmpty || f.included.any (·.matchText p.text)) &&
    !f.excluded.any (·.matchText p.text) && (f.withTests || !p.isTest)

end PathFilter

end Uplift
