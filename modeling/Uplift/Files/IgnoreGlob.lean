import Uplift.Text.Search

/-!
# Globs of ignore files

Here `*` and `?` do not cross a slash, `**` between slashes stands for any directories,
braces hold alternatives, and a backslash takes the meaning from the next character.
Texts are matched byte by byte; `Piece.ends` gives the meaning of a piece as what may
follow it.
-/

namespace Uplift

abbrev Bytes := List UInt8

def bytesOf (cs : List Char) : Bytes := cs.flatMap String.utf8EncodeChar

namespace IgnoreGlob

inductive Piece where
  | byte (b : UInt8)
  | anyByte
  | anyRun
  /-- Directories at the start, maybe none. -/
  | leadingDirs
  /-- A slash and all that follows. -/
  | trailingAll
  /-- A slash, or directories between two slashes. -/
  | innerDirs
  | oneByte (negated : Bool) (ranges : List (UInt8 × UInt8))
  | oneOf (alternatives : List (List Piece))
  deriving Repr, Inhabited

def slash : UInt8 := 47

/-- A text and all its ends. -/
def allEnds : Bytes → List Bytes
  | [] => [[]]
  | b :: rest => (b :: rest) :: allEnds rest

/-- The ends up to the first slash, which stays. -/
def endsWithinName : Bytes → List Bytes
  | [] => [[]]
  | b :: rest => if b = slash then [b :: rest] else (b :: rest) :: endsWithinName rest

/-- What follows each slash. -/
def endsAfterSlash : Bytes → List Bytes
  | [] => []
  | b :: rest => if b = slash then rest :: endsAfterSlash rest else endsAfterSlash rest

def inClass (ranges : List (UInt8 × UInt8)) (b : UInt8) : Bool :=
  ranges.any fun (low, high) => low ≤ b && b ≤ high

mutual

/-- What may follow a piece at the start of a text. -/
def Piece.ends : Piece → Bytes → List Bytes
  | .byte a, bs =>
    match bs with
    | b :: rest => if a = b then [rest] else []
    | [] => []
  | .anyByte, bs =>
    match bs with
    | b :: rest => if b = slash then [] else [rest]
    | [] => []
  | .anyRun, bs => endsWithinName bs
  | .leadingDirs, bs => bs :: endsAfterSlash bs
  | .trailingAll, bs =>
    match bs with
    | b :: rest => if b = slash then allEnds rest else []
    | [] => []
  | .innerDirs, bs =>
    match bs with
    | b :: rest => if b = slash then rest :: endsAfterSlash rest else []
    | [] => []
  | .oneByte negated ranges, bs =>
    match bs with
    | b :: rest => if inClass ranges b != negated then [rest] else []
    | [] => []
  | .oneOf alternatives, bs => endsOfAny alternatives bs

def endsOf : List Piece → Bytes → List Bytes
  | [], bs => [bs]
  | p :: ps, bs => (p.ends bs).flatMap (endsOf ps)

/-- Alternatives without pieces do not count. -/
def endsOfAny : List (List Piece) → Bytes → List Bytes
  | [], _ => []
  | ps :: rest, bs => (if ps.isEmpty then [] else endsOf ps bs) ++ endsOfAny rest bs

end

def matchPieces (pieces : List Piece) (bs : Bytes) : Bool :=
  match pieces with
  | [.leadingDirs] => true
  | pieces => (endsOf pieces bs).any List.isEmpty

/-! ### Reading -/

/-- What is read so far: alternatives that are open around the pieces under way. -/
structure Reader where
  /-- The pieces before an opening brace, and the alternatives that are done. -/
  outer : List (List Piece × List (List Piece)) := []
  /-- Newest first. -/
  pieces : List Piece := []
  before : Option Char := none
  deriving Inhabited

namespace Reader

def push (r : Reader) (p : Piece) : Reader := { r with pieces := p :: r.pieces }

def pushChar (r : Reader) (c : Char) : Reader :=
  (bytesOf [c]).foldl (fun r b => r.push (.byte b)) r

def openBrace (r : Reader) : Reader :=
  { r with outer := (r.pieces, []) :: r.outer, pieces := [] }

def nextAlternative? (r : Reader) : Option Reader :=
  match r.outer with
  | [] => none
  | (before, done) :: outer =>
    some { r with outer := (before, done ++ [r.pieces.reverse]) :: outer, pieces := [] }

def closeBrace? (r : Reader) : Option Reader :=
  match r.outer with
  | [] => none
  | (before, done) :: outer =>
    some { r with outer := outer, pieces := .oneOf (done ++ [r.pieces.reverse]) :: before }

end Reader

/-- Ranges of bytes for a range of characters. -/
def byteRanges (low high : Char) : List (UInt8 × UInt8) :=
  let single (b : UInt8) : UInt8 × UInt8 := (b, b)
  if low = high then (bytesOf [low]).map single
  else
    match (bytesOf [low]).reverse, bytesOf [high] with
    | last :: before, first :: after =>
      before.reverse.map single ++ [(last, first)] ++ after.map single
    | _, _ => []

/-- What reading a class came to. -/
inductive ClassRead where
  | done (ranges : List (Char × Char)) (rest : List Char)
  | unclosed
  | reversed

/-- Gives the last range a new end. -/
def extendLast? (ranges : List (Char × Char)) (high : Char) : Option (List (Char × Char)) :=
  match ranges.getLast? with
  | some (low, _) => if low ≤ high then some (ranges.dropLast ++ [(low, high)]) else none
  | none => none

/-- Reads a class behind its opening bracket; `inRange` says that a dash came last. -/
def readClass : Bool → Bool → List (Char × Char) → List Char → ClassRead
  | _, _, _, [] => .unclosed
  | isFirst, inRange, ranges, c :: rest =>
    if c = ']' ∧ ¬isFirst then .done (if inRange then ranges ++ [('-', '-')] else ranges) rest
    else if inRange then
      match extendLast? ranges c with
      | some ranges => readClass false false ranges rest
      | none => .reversed
    else if c = '-' ∧ ¬isFirst then readClass false true ranges rest
    else readClass false false (ranges ++ [(c, c)]) rest

/-- Stars are read as directories where they stand alone between slashes. -/
def starPieces (r : Reader) (rest : List Char) : Reader × List Char :=
  match rest with
  | '*' :: after =>
    let twice := (r.push .anyRun).push .anyRun
    let endsHere := after.isEmpty || (¬r.outer.isEmpty && (after.head? = some ',' || after.head? = some '\x7d'))
    if r.pieces.isEmpty then
      match after with
      | [] => (r.push .leadingDirs, [])
      | c :: tail => if c = '/' then (r.push .leadingDirs, tail) else (twice, after)
    else if r.before ≠ some '/' ∧ ¬(¬r.outer.isEmpty ∧ (r.before = some ',' ∨ r.before = some '\x7b')) then
      (twice, after)
    else
      let replace (p : Piece) : Reader :=
        match r.pieces with
        | .leadingDirs :: _ | .trailingAll :: _ => r
        | _ :: pieces => { r with pieces := p :: pieces }
        | [] => r
      if endsHere then (replace .trailingAll, after)
      else if after.head? = some '/' then (replace .innerDirs, after.drop 1)
      else (twice, after)
  | rest => (r.push .anyRun, rest)

def readPieces : Nat → Reader → List Char → Option (List Piece)
  | 0, _, _ => none
  | _, r, [] => if r.outer.isEmpty then some r.pieces.reverse else none
  | fuel + 1, r, c :: rest =>
    let next (r : Reader) (last : Char) (rest : List Char) : Option (List Piece) :=
      readPieces fuel { r with before := some last } rest
    if c = '?' then next (r.push .anyByte) c rest
    else if c = '*' then
      let (r, after) := starPieces r rest
      let last := if after.length + 1 < rest.length then '/' else '*'
      next r last after
    else if c = '[' then
      let (negated, body) :=
        match rest with
        | '!' :: body | '^' :: body => (true, body)
        | body => (false, body)
      match readClass true false [] body with
      | .done ranges after =>
        next (r.push (.oneByte negated (ranges.flatMap fun (a, b) => byteRanges a b))) ']' after
      | .unclosed => next (r.pushChar c) c rest
      | .reversed => none
    else if c = '\x7b' then next r.openBrace c rest
    else if c = '\x7d' then r.closeBrace?.bind fun r => next r c rest
    else if c = ',' then
      match r.nextAlternative? with
      | some r => next r c rest
      | none => next (r.pushChar c) c rest
    else if c = '\\' then
      match rest with
      | [] => none
      | d :: rest => next (r.pushChar d) d rest
    else next (r.pushChar c) c rest

/-- The pieces of a glob, none if it is malformed. -/
def read? (glob : List Char) : Option (List Piece) := readPieces (glob.length + 1) {} glob

end IgnoreGlob

end Uplift
