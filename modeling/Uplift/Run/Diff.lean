import Uplift.Text.Lines

/-!
# Differences between two texts

The lines that two texts share at their start and at their end are left out; what is left
of each side is one block of a hunk. Texts that differ in line endings alone show their
last line on both sides.
-/

namespace Uplift

/-- `removed` stands in the old text and `added` in the new one behind the same `skipped` lines. -/
structure Hunk where
  skipped : Nat
  removed : List String
  added : List String
  /-- Whether the block ends the old text, and that without a newline. -/
  oldLacksNewline : Bool := false
  newLacksNewline : Bool := false
  deriving DecidableEq, Repr, Inhabited

namespace Hunk

/-- How many elements two lists share at their start. -/
def commonLength : List String → List String → Nat
  | a :: as, b :: bs => if a = b then commonLength as bs + 1 else 0
  | _, _ => 0

def endsWithNewline (text : String) : Bool := text.toList.getLast? == some '\n'

/-- The hunk between two texts, none where no line tells them apart. -/
def between? (before after : String) : Option Hunk :=
  let old := Text.linesOf before
  let new := Text.linesOf after
  let shared := commonLength old new
  let suffix := commonLength (old.drop shared).reverse (new.drop shared).reverse
  let sameLines := shared + suffix = old.length ∧ shared + suffix = new.length
  if before = after ∨ (sameLines ∧ old.isEmpty) then none
  else
    let skipped := if sameLines then old.length - 1 else shared
    let removed := (old.drop skipped).take (old.length - suffix - skipped)
    let added := (new.drop skipped).take (new.length - suffix - skipped)
    some {
      skipped := skipped
      removed := removed
      added := added
      oldLacksNewline := !removed.isEmpty && suffix = 0 && !endsWithNewline before
      newLacksNewline := !added.isEmpty && suffix = 0 && !endsWithNewline after }

def noNewline : String := "\\ No newline at end of file\n"

def block (sign : String) (lines : List String) (lacksNewline : Bool) : String :=
  String.join (lines.map fun line => sign ++ line ++ "\n") ++
    if lacksNewline then noNewline else ""

def header (path : String) (h : Hunk) : String :=
  let first := h.skipped + 1
  s!"--- a/{path}\n+++ b/{path}\n" ++
    s!"@@ -{first},{h.removed.length} +{first},{h.added.length} @@\n"

def render (path : String) (h : Hunk) : String :=
  h.header path ++ block "-" h.removed h.oldLacksNewline ++ block "+" h.added h.newLacksNewline

end Hunk

/-- The difference between two texts of a file, empty where there is none to show. -/
def diffText (path before after : String) : String :=
  match Hunk.between? before after with
  | some h => h.render path
  | none => ""

end Uplift
