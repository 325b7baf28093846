import Uplift.Path
import Uplift.Pattern.Basic

/-!
# Rewrites of a text

Patterns work on a text one after the other, and each replaces its matches one at a time
from left to right. What comes out is a chain: every rewrite begins with the text that
the one before it left.
-/

namespace Uplift

/-- One match replaced. -/
structure Rewrite where
  pattern : Pattern
  matched : String
  replacement : String
  before : String
  after : String

/-- A text with the rewrites that lead away from it. -/
structure Analysis where
  path : Path
  original : String
  rewrites : List Rewrite

namespace Analysis

/-- The text after the last rewrite. -/
def final (a : Analysis) : String := (a.rewrites.getLast?.map (·.after)).getD a.original

def isUnchanged (a : Analysis) : Bool := a.rewrites.isEmpty

/-- Bytes by which the replacements so far have moved the rest of the text. -/
structure Drift where
  grown : Nat := 0
  shrunk : Nat := 0
  deriving DecidableEq, Repr, Inhabited

/-- Where a byte of the text as matched is now. -/
def Drift.move? (d : Drift) (offset : Nat) : Option Nat :=
  if d.shrunk ≤ offset + d.grown then some (offset + d.grown - d.shrunk) else none

/-- `size` bytes have become `replaced` ones. -/
def Drift.add (d : Drift) (size replaced : Nat) : Drift :=
  if size ≤ replaced then { d with grown := d.grown + (replaced - size) }
  else { d with shrunk := d.shrunk + (size - replaced) }

/-- Replaces matches that were found in a text of which `current` is what has become. -/
def rewriteMatches (p : Pattern) : Drift → String → List Match → List Rewrite × String
  | _, current, [] => ([], current)
  | drift, current, m :: rest =>
    let replacement := p.transform.apply m
    let size := m.stop - m.start
    match (drift.move? m.start).bind fun start =>
        Pattern.splice? current start (start + size) replacement with
    | none => rewriteMatches p drift current rest
    | some after =>
      let (rewrites, last) :=
        rewriteMatches p (drift.add size replacement.utf8ByteSize) after rest
      (⟨p, m.text, replacement, current, after⟩ :: rewrites, last)

/-- The rewrites of patterns that find their matches in some way, each in what the patterns
before it left. -/
def rewritesBy (find : Pattern → String → List Match) : List Pattern → String → List Rewrite
  | [], _ => []
  | p :: ps, current =>
    let (rewrites, last) := rewriteMatches p {} current (find p current)
    rewrites ++ rewritesBy find ps last

def rewritesOf (patterns : List Pattern) (content : String) : List Rewrite :=
  rewritesBy Pattern.find patterns content

def ofContent (path : Path) (content : String) (patterns : List Pattern) : Analysis :=
  { path := path, original := content, rewrites := rewritesOf patterns content }

end Analysis

end Uplift
