/-!
# Counts of a scan

What was seen while files were analysed. Every count is a sum over the files, so the
order of the files does not matter. A count is a word of 64 bits, and behind the greatest
one it starts anew.
-/

namespace Uplift

abbrev Count := Fin UInt64.size

def Count.ofNat (n : Nat) : Count := Fin.ofNat _ n

@[ext]
structure Counters where
  files : Count := 0
  matchedFiles : Count := 0
  found : Count := 0
  errors : Count := 0
  deriving DecidableEq, Repr, Inhabited

namespace Counters

def addFile (c : Counters) : Counters := { c with files := c.files + 1 }

def addError (c : Counters) : Counters := { c with errors := c.errors + 1 }

def addMatchedFile (c : Counters) : Counters := { c with matchedFiles := c.matchedFiles + 1 }

def addFound (c : Counters) (n : Nat) : Counters := { c with found := c.found + .ofNat n }

/-- Counts the matches of a file; a file without any leaves the counts as they are. -/
def addMatches (c : Counters) (n : Nat) : Counters :=
  if n = 0 then c else c.addMatchedFile.addFound n

/-- Percentage of the files that had a match. -/
def matchRate (c : Counters) : Float :=
  if c.files = 0 then 0.0
  else c.matchedFiles.val.toUInt64.toFloat / c.files.val.toUInt64.toFloat * 100.0

end Counters

end Uplift
