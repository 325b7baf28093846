import Uplift.Analysis.Counters
import Uplift.Analysis.Rewrite
import Uplift.Files.Store

/-!
# Scans

A scan reads files and analyses each by itself. The results stand in the order of the
paths, and a file that cannot be read yields its error in its place.
-/

namespace Uplift.Analysis

variable {σ : Type} [FileStore σ]

def ofFile (store : σ) (patterns : List Pattern) (path : Path) : Except FileError Analysis :=
  (FileStore.read store path).map fun content => ofContent path content patterns

def ofFiles (store : σ) (patterns : List Pattern) (paths : List Path) :
    List (Path × Except FileError Analysis) :=
  paths.map fun path => (path, ofFile store patterns path)

/-- The counts after one more result. -/
def count (c : Counters) : Except FileError Analysis → Counters
  | .ok a => c.addFile.addMatches a.rewrites.length
  | .error _ => c.addFile.addError

def countAll (results : List (Path × Except FileError Analysis)) (start : Counters := {}) :
    Counters :=
  results.foldl (fun c r => count c r.2) start

/-- Analyses and counts the files one after the other. -/
def inSequence (store : σ) (patterns : List Pattern) :
    Counters → List Path → List (Path × Except FileError Analysis) × Counters
  | c, [] => ([], c)
  | c, path :: rest =>
    let result := ofFile store patterns path
    let (results, last) := inSequence store patterns (count c result) rest
    ((path, result) :: results, last)

end Uplift.Analysis
