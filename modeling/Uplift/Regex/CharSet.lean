import Uplift.Text.Class

/-!
# Sets of characters

Sets are built from ranges and classes by the set operations; `holds` is membership.
-/

namespace Uplift

inductive CharSet where
  | nothing
  | between (first last : Char)
  | word
  | digit
  | blank
  | union (a b : CharSet)
  | inter (a b : CharSet)
  | minus (a b : CharSet)
  | differ (a b : CharSet)
  | compl (a : CharSet)
  /-- The characters that differ at most in case from one of the set. -/
  | anyCase (a : CharSet)
  deriving DecidableEq, Repr, Inhabited

namespace CharSet

def holds : CharSet → Char → Bool
  | nothing, _ => false
  | between first last, c => first ≤ c && c ≤ last
  | word, c => Text.isWordChar c
  | digit, c => Text.isDecimalDigit c
  | blank, c => Text.isBlank c
  | union a b, c => a.holds c || b.holds c
  | inter a b, c => a.holds c && b.holds c
  | minus a b, c => a.holds c && !b.holds c
  | differ a b, c => a.holds c != b.holds c
  | compl a, c => !a.holds c
  | anyCase a, c => a.holds c || (Text.caseVariants c).any a.holds

def single (c : Char) : CharSet := between c c

def ofChars (cs : List Char) : CharSet := cs.foldr (fun c s => union (single c) s) nothing

def ofRanges (rs : List (Char × Char)) : CharSet :=
  rs.foldr (fun (a, b) s => union (between a b) s) nothing

/-- Every character but the line feed. -/
def notNewline : CharSet := compl (single '\n')

def all : CharSet := compl nothing

/-- The ASCII classes that brackets may name. -/
def named? : String → Option CharSet
  | "alnum" => some (ofRanges [('0', '9'), ('A', 'Z'), ('a', 'z')])
  | "alpha" => some (ofRanges [('A', 'Z'), ('a', 'z')])
  | "ascii" => some (between '\x00' '\x7f')
  | "blank" => some (ofChars ['\t', ' '])
  | "cntrl" => some (ofRanges [('\x00', '\x1f'), ('\x7f', '\x7f')])
  | "digit" => some (between '0' '9')
  | "graph" => some (between '!' '~')
  | "lower" => some (between 'a' 'z')
  | "print" => some (between ' ' '~')
  | "punct" => some (ofRanges [('!', '/'), (':', '@'), ('[', '`'), ('\x7b', '~')])
  | "space" => some (ofChars ['\t', '\n', '\x0b', '\x0c', '\r', ' '])
  | "upper" => some (between 'A' 'Z')
  | "word" => some (ofRanges [('0', '9'), ('A', 'Z'), ('_', '_'), ('a', 'z')])
  | "xdigit" => some (ofRanges [('0', '9'), ('A', 'F'), ('a', 'f')])
  | _ => none

end CharSet

end Uplift
