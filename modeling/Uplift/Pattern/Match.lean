import Uplift.Regex.Reader
import Uplift.Text.Cut
import Uplift.Text.Search

/-!
# Matches

A matcher finds a literal or an expression in a text. Matches are given by byte offsets,
in order and without overlap.
-/

namespace Uplift

/-- One occurrence: its bytes and what its groups hold, the whole match first. -/
structure Match where
  start : Nat
  stop : Nat
  groups : List (Option String)
  deriving DecidableEq, Repr, Inhabited

namespace Match

def group? (m : Match) (index : Nat) : Option String := (m.groups[index]?).join

/-- The text of a group, empty if it took no part. -/
def groupText (m : Match) (index : Nat) : String := (m.group? index).getD ""

def text (m : Match) : String := m.groupText 0

end Match

inductive Matcher where
  | literal (needle : String)
  | regex (source : String) (expression : Regex) (groups : Nat)
  deriving DecidableEq, Repr, Inhabited

namespace Matcher

def regex? (source : String) : Option Matcher :=
  (Regex.read? source).map fun (r, groups) => regex source r groups

/-- The text that the matcher was made from. -/
def source : Matcher → String
  | literal needle => needle
  | regex source _ _ => source

/-- Byte offsets of the occurrences of a needle; `skip` characters belong to the last one. -/
def literalStarts (needle : List Char) : Nat → Nat → List Char → List Nat
  | _, _, [] => []
  | offset, skip + 1, c :: cs => literalStarts needle (offset + c.utf8Size) skip cs
  | offset, 0, c :: cs =>
    if Text.startsWith needle (c :: cs) then
      offset :: literalStarts needle (offset + c.utf8Size) (needle.length - 1) cs
    else literalStarts needle (offset + c.utf8Size) 0 cs

def ofSpan (content : List Char) (groups : Nat) (start stop : Regex.Spot) : Match :=
  let textOf (a b : Nat) : Option String := (Text.slice? a b content).map String.ofList
  let groupOf (index : Nat) : Option String :=
    match stop.groups.find? (·.1 = index) with
    | some (_, a, b) => textOf a b
    | none => none
  { start := start.offset
    stop := stop.offset
    groups := textOf start.offset stop.offset :: (List.range groups).map (groupOf <| · + 1) }

/-- All matches, in order. -/
def find (m : Matcher) (content : String) : List Match :=
  match m with
  | literal needle =>
    if needle.isEmpty then []
    else
      (literalStarts needle.toList 0 0 content.toList).map fun start =>
        ⟨start, start + Text.byteSize needle.toList, [some needle]⟩
  | regex _ r groups =>
    let cs := content.toList
    (r.findAll cs).map fun (start, stop) => ofSpan cs groups start stop

def isMatch (m : Matcher) (content : String) : Bool :=
  match m with
  | literal needle => !needle.isEmpty && Text.contains needle.toList content.toList
  | regex _ r _ => r.isMatch content.toList

/-- Whether the empty text is accepted. -/
def matchesEmpty : Matcher → Bool
  | literal needle => needle.isEmpty
  | regex _ r _ => r.isMatch []

end Matcher

end Uplift
