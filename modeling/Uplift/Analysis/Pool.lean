import Uplift.Analysis.Scan

/-!
# Scans with several workers

The workers of a pool share the files and the counts. The work on a file takes a few steps,
and each of them adds to one count at most, in one access to its cell. No step reads a count
or changes a file. Workers take their steps in any order, and the results are put together in
the order of the paths.
-/

namespace Uplift.Analysis

/-- How far the work on a file has come. -/
inductive Stage where
  | waiting
  /-- The file is counted, and about to be read. -/
  | counted
  | analysed (a : Analysis)
  /-- The file is counted as one with matches, but the matches are not. -/
  | matched (a : Analysis) (some : a.rewrites.length ≠ 0)
  /-- The file could not be read, and the error is not counted yet. -/
  | failed (e : FileError)
  | finished (result : Except FileError Analysis)

namespace Stage

/-- What the next step adds to the counts. -/
def tally : Stage → Counters → Counters
  | waiting, c => c.addFile
  | counted, c => c
  | analysed a, c => if a.rewrites.length = 0 then c else c.addMatchedFile
  | matched a _, c => c.addFound a.rewrites.length
  | failed _, c => c.addError
  | finished _, c => c

def result? : Stage → Option (Except FileError Analysis)
  | finished result => some result
  | waiting | counted | analysed _ | matched .. | failed _ => none

end Stage

structure Job where
  path : Path
  stage : Stage := .waiting

/-- Files that are analysed by several workers. -/
structure Pool where
  counters : Counters
  jobs : List Job

section
variable {σ : Type} [FileStore σ]

/-- Where the next step of the work on a file leads. -/
def Stage.next (store : σ) (patterns : List Pattern) (path : Path) : Stage → Stage
  | waiting => counted
  | counted =>
    match ofFile store patterns path with
    | .ok a => analysed a
    | .error e => failed e
  | analysed a => if none : a.rewrites.length = 0 then finished (.ok a) else matched a none
  | matched a _ => finished (.ok a)
  | failed e => finished (.error e)
  | finished result => finished result

def Job.next (store : σ) (patterns : List Pattern) (j : Job) : Job :=
  { j with stage := j.stage.next store patterns j.path }

def Job.result? (j : Job) : Option (Path × Except FileError Analysis) :=
  j.stage.result?.map (j.path, ·)

namespace Pool

/-- No worker has begun yet. -/
def begin (start : Counters) (paths : List Path) : Pool :=
  { counters := start, jobs := paths.map ({ path := · }) }

/-- A worker takes the next step at the file in one place. -/
def turn (store : σ) (patterns : List Pattern) (p : Pool) (place : Nat) : Pool :=
  match p.jobs[place]? with
  | some j =>
    { counters := j.stage.tally p.counters
      jobs := p.jobs.set place (j.next store patterns) }
  | none => p

/-- The workers take their steps at files in these places. -/
def turns (store : σ) (patterns : List Pattern) (p : Pool) (schedule : List Nat) : Pool :=
  schedule.foldl (turn store patterns) p

/-- The results in the order of the paths, once all work is done. -/
def results? (p : Pool) : Option (List (Path × Except FileError Analysis)) :=
  p.jobs.mapM Job.result?

end Pool

end

end Uplift.Analysis
