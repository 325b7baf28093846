import Uplift.Regex.CharSet
import Uplift.Text.Cut

/-!
# Regular expressions

`Regex.ends` lists where an expression may end when it starts at a spot, the preferred
end first and each end once. Of two ways to the same end the preferred one counts, since
what follows depends on the end alone. A search takes the leftmost start that has an end,
and of its ends the first.
-/

namespace Uplift

/-- What words are made of: the word characters of all scripts, or those of ASCII alone. -/
inductive WordClass where
  | unicode
  | ascii
  deriving DecidableEq, Repr, Inhabited

/-- Conditions on a place between characters. A half of a word's edge looks at one side alone,
and lines that end with a carriage return and a line feed are not parted between the two. -/
inductive Look where
  | textStart
  | textEnd
  | lineStart
  | lineEnd
  | lineStartCrlf
  | lineEndCrlf
  | wordBoundary (w : WordClass)
  | insideWord (w : WordClass)
  | wordStart (w : WordClass)
  | wordEnd (w : WordClass)
  | wordStartHalf (w : WordClass)
  | wordEndHalf (w : WordClass)
  deriving DecidableEq, Repr, Inhabited

inductive Regex where
  | empty
  | set (s : CharSet)
  | look (l : Look)
  | cat (a b : Regex)
  | alt (a b : Regex)
  /-- One or more characters of a set, as many or as few as possible. -/
  | run (s : CharSet) (greedy : Bool)
  /-- One or more times, as often or as seldom as possible. -/
  | plus (a : Regex) (greedy : Bool)
  | group (index : Nat) (a : Regex)
  deriving DecidableEq, Repr, Inhabited

namespace Regex

/-- A place in a text: the character before it, what follows, the bytes before it, and
the spans that groups took on the way, the latest first. -/
structure Spot where
  before : Option Char
  rest : List Char
  offset : Nat
  groups : List (Nat × Nat × Nat)
  deriving DecidableEq, Repr, Inhabited

namespace Spot

def ofText (cs : List Char) : Spot := ⟨none, cs, 0, []⟩

def past (s : Spot) (c : Char) (rest : List Char) : Spot :=
  { s with before := some c, rest := rest, offset := s.offset + c.utf8Size }

def next? (s : Spot) : Option Spot :=
  match s.rest with
  | [] => none
  | c :: rest => some (s.past c rest)

end Spot

def isWord (c : Option Char) : Bool := c.any Text.isWordChar

def inWord : WordClass → Option Char → Bool
  | .unicode, c => isWord c
  | .ascii, c => c.any fun c => c.isAlphanum || c == '_'

@[simp] theorem inWord_unicode (c : Option Char) : inWord .unicode c = isWord c := rfl

def Look.holds (s : Spot) : Look → Bool
  | .textStart => s.before.isNone
  | .textEnd => s.rest.isEmpty
  | .lineStart => s.before.all (· == '\n')
  | .lineEnd => s.rest.head?.all (· == '\n')
  | .lineStartCrlf => s.before.all fun c => c == '\n' || c == '\r' && s.rest.head? != some '\n'
  | .lineEndCrlf => s.rest.head?.all fun c => c == '\r' || c == '\n' && s.before != some '\r'
  | .wordBoundary w => inWord w s.before != inWord w s.rest.head?
  | .insideWord w => inWord w s.before == inWord w s.rest.head?
  | .wordStart w => !inWord w s.before && inWord w s.rest.head?
  | .wordEnd w => inWord w s.before && !inWord w s.rest.head?
  | .wordStartHalf w => !inWord w s.before
  | .wordEndHalf w => !inWord w s.rest.head?

/-- The spots with distinct offsets, each at its first place. -/
def distinct : List Spot → List Spot
  | [] => []
  | s :: rest => s :: (distinct rest).filter (·.offset ≠ s.offset)

/-- The spots after one, two, … characters of a set. -/
def runSpots (set : CharSet) (s : Spot) : List Char → List Spot
  | [] => []
  | c :: rest =>
    if set.holds c then
      let next := s.past c rest
      next :: runSpots set next rest
    else []

mutual

/-- The ends after a round that stopped at `s`, with the offsets where rounds stopped. -/
def again (step : Spot → List Spot) (greedy : Bool) :
    Nat → List Nat → Spot → List Spot × List Nat
  | 0, seen, _ => ([], seen)
  | fuel + 1, seen, s =>
    if s.offset ∈ seen then ([], seen)
    else
      let (further, seen) :=
        rounds step greedy fuel (s.offset :: seen) ((step s).filter (s.offset < ·.offset))
      (if greedy then further ++ [s] else s :: further, seen)

def rounds (step : Spot → List Spot) (greedy : Bool) :
    Nat → List Nat → List Spot → List Spot × List Nat
  | 0, seen, _ => ([], seen)
  | _, seen, [] => ([], seen)
  | fuel + 1, seen, s :: rest =>
    let (first, seen) := again step greedy fuel seen s
    let (others, seen) := rounds step greedy fuel seen rest
    (first ++ others, seen)

end

/-- What follows the first rounds from the offset `origin`. A round without a character
is not followed by another. -/
def afterFirst (step : Spot → List Spot) (greedy : Bool) (fuel origin : Nat) :
    List Nat → List Spot → List Spot
  | _, [] => []
  | seen, s :: rest =>
    if s.offset = origin then
      if s.offset ∈ seen then afterFirst step greedy fuel origin seen rest
      else s :: afterFirst step greedy fuel origin (s.offset :: seen) rest
    else
      let (ends, seen) := again step greedy fuel seen s
      ends ++ afterFirst step greedy fuel origin seen rest

/-- One round and then more. -/
def repeated (step : Spot → List Spot) (greedy : Bool) (s : Spot) : List Spot :=
  let room := s.rest.length + 2
  afterFirst step greedy (room * room) s.offset [] (step s)

def ends : Regex → Spot → List Spot
  | empty, s => [s]
  | set cs, s =>
    match s.rest with
    | [] => []
    | c :: rest => if cs.holds c then [s.past c rest] else []
  | look l, s => if Look.holds s l then [s] else []
  | cat a b, s => distinct ((ends a s).flatMap (ends b))
  | alt a b, s => distinct (ends a s ++ ends b s)
  | run cs greedy, s =>
    let spots := runSpots cs s s.rest
    if greedy then spots.reverse else spots
  | plus a greedy, s => repeated (ends a) greedy s
  | group index a, s =>
    (ends a s).map fun e => { e with groups := (index, s.offset, e.offset) :: e.groups }

/-- The leftmost match at or after a spot: where it starts and where it ends. -/
def search (r : Regex) (s : Spot) : Option (Spot × Spot) :=
  go s.rest s
where
  go : List Char → Spot → Option (Spot × Spot)
    | [], s => (r.ends s).head?.map (s, ·)
    | c :: rest, s =>
      match (r.ends s).head? with
      | some e => some (s, e)
      | none => go rest (s.past c rest)

/-- The next match from a spot on, where the one before it ended after `last` bytes.
An empty match is not allowed right there. -/
def nextMatch (r : Regex) (last : Option Nat) (s : Spot) : Option (Spot × Spot) :=
  match r.search s with
  | none => none
  | some (start, stop) =>
    if start.offset = stop.offset ∧ last = some stop.offset then s.next?.bind r.search
    else some (start, stop)

def findFrom (r : Regex) : Nat → Option Nat → Spot → List (Spot × Spot)
  | 0, _, _ => []
  | fuel + 1, last, s =>
    match r.nextMatch last s with
    | none => []
    | some (start, stop) =>
      (start, stop) :: findFrom r fuel (some stop.offset) { stop with groups := [] }

/-- All matches in a text, in order. -/
def findAll (r : Regex) (cs : List Char) : List (Spot × Spot) :=
  findFrom r (cs.length + 2) none (Spot.ofText cs)

def isMatch (r : Regex) (cs : List Char) : Bool := (r.search (Spot.ofText cs)).isSome

end Regex

end Uplift
