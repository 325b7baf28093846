import Uplift.Regex.Basic
import Uplift.Text.Search

/-!
# Reading regular expressions

`Regex.read?` reads the text of an expression: alternatives, repetitions, groups with
or without names, classes in brackets with set operations, escapes and flags. Look-around
and back references are refused, and so is everything that is not well formed or nests too
deep. An expression takes whole characters: where Unicode is switched off, what could take
a byte that is not ASCII is refused. Classes named by a Unicode property are left out, and
an expression that holds one is refused as well.
-/

namespace Uplift.Regex

structure Flags where
  anyCase : Bool := false
  multiLine : Bool := false
  dotAll : Bool := false
  swapGreed : Bool := false
  unicode : Bool := true
  extended : Bool := false
  crlf : Bool := false
  deriving DecidableEq, Repr, Inhabited

/-- The characters that may stand in a class. -/
def Flags.allows (f : Flags) (c : Char) : Bool := f.unicode || c.toNat < 0x80

def Flags.wordClass (f : Flags) : WordClass := if f.unicode then .unicode else .ascii

/-- What is left to read, the flags in force, the groups so far, and how deep that nests
which was read last. -/
structure ReadState where
  rest : List Char
  flags : Flags := {}
  groups : Nat := 0
  names : List String := []
  depth : Nat := 0

/-- Blanks and comments, which an extended expression may hold anywhere. -/
def skipComments : Nat → List Char → List Char
  | 0, cs => cs
  | fuel + 1, cs =>
    match cs with
    | [] => []
    | c :: rest =>
      if Text.isBlank c then skipComments fuel rest
      else if c = '#' then skipComments fuel ((rest.dropWhile (· ≠ '\n')).drop 1)
      else cs

def blankFree (flags : Flags) (cs : List Char) : List Char :=
  if flags.extended then skipComments (cs.length + 1) cs else cs

def ReadState.skip (st : ReadState) : ReadState := { st with rest := blankFree st.flags st.rest }

/-- Behind the rest of a sequence, its first part comes to its depth. A sequence of several
parts nests deeper than each of them. -/
def ReadState.after (st : ReadState) (follows : Bool) (depth : Nat) : ReadState :=
  { st with depth := max st.depth (if follows || 0 < st.depth then depth + 1 else depth) }

/-! ### Escapes -/

/-- What an escape stands for. -/
inductive Escaped where
  | char (c : Char)
  | set (s : CharSet)
  | look (l : Look)

def hexDigit? (c : Char) : Option Nat :=
  if c.isDigit then some (c.toNat - '0'.toNat)
  else if 'a' ≤ c ∧ c ≤ 'f' then some (c.toNat - 'a'.toNat + 10)
  else if 'A' ≤ c ∧ c ≤ 'F' then some (c.toNat - 'A'.toNat + 10)
  else none

def charOfHex? (digits : List Char) : Option Char :=
  if digits.isEmpty then none
  else do
    let n ← digits.foldlM (fun n d => (hexDigit? d).map (n * 16 + ·)) 0
    if n < 0xd800 ∨ (0xdfff < n ∧ n < 0x110000) then some (Char.ofNat n) else none

/-- At most so many characters of a kind, and what follows them. -/
def gather (flags : Flags) (wanted : Char → Bool) : Nat → List Char → List Char × List Char
  | 0, cs => ([], cs)
  | n + 1, cs =>
    match blankFree flags cs with
    | [] => ([], [])
    | c :: rest =>
      if wanted c then
        let (more, after) := gather flags wanted n rest
        (c :: more, after)
      else ([], c :: rest)

/-- Hexadecimal digits in braces, or exactly `count` of them. Two digits are a byte where
Unicode is switched off. -/
def hexEscape? (flags : Flags) (count : Nat) (cs : List Char) : Option (Escaped × List Char) :=
  match blankFree flags cs with
  | '\x7b' :: rest =>
    match gather flags (· ≠ '\x7d') rest.length rest with
    | (digits, _ :: after) => (charOfHex? digits).map fun c => (.char c, after)
    | (_, []) => none
  | cs =>
    let (digits, after) := gather flags (fun _ => true) count cs
    match charOfHex? digits with
    | some c =>
      if digits.length < count ∨ (count = 2 ∧ !flags.allows c) then none
      else some (.char c, after)
    | none => none

def asciiOr (unicode : Bool) (s : CharSet) (name : String) : CharSet :=
  if unicode then s else (CharSet.named? name).getD .nothing

/-- The edges of words that have names. -/
def edgeNamed? (w : WordClass) : String → Option Look
  | "start" => some (.wordStart w)
  | "end" => some (.wordEnd w)
  | "start-half" => some (.wordStartHalf w)
  | "end-half" => some (.wordEndHalf w)
  | _ => none

/-- The condition after `\b`: an edge may be named in braces, which may also hold a count. -/
def boundary? (flags : Flags) (cs : List Char) : Option (Look × List Char) :=
  let plain : Option (Look × List Char) := some (.wordBoundary flags.wordClass, cs)
  match cs with
  | '\x7b' :: rest =>
    let (name, after) := gather flags (fun c => c.isAlpha || c == '-') (rest.length + 1) rest
    if name.isEmpty then plain
    else
      match after with
      | '\x7d' :: after => (edgeNamed? flags.wordClass (String.ofList name)).map (·, after)
      | _ => none
  | _ => plain

/-- The escape after a backslash. -/
def escape? (flags : Flags) (cs : List Char) : Option (Escaped × List Char) :=
  match cs with
  | [] => none
  | c :: rest =>
    let char (x : Char) : Option (Escaped × List Char) := some (.char x, rest)
    let set (s : CharSet) : Option (Escaped × List Char) := some (.set s, rest)
    let look (l : Look) : Option (Escaped × List Char) := some (.look l, rest)
    let others (s : CharSet) : Option (Escaped × List Char) :=
      if flags.unicode then set (.compl s) else none
    let words := asciiOr flags.unicode .word "word"
    let digits := asciiOr flags.unicode .digit "digit"
    let blanks := asciiOr flags.unicode .blank "space"
    if c = 'n' then char '\n'
    else if c = 't' then char '\t'
    else if c = 'r' then char '\r'
    else if c = 'f' then char '\x0c'
    else if c = 'v' then char '\x0b'
    else if c = 'a' then char '\x07'
    else if c = 'x' then hexEscape? flags 2 rest
    else if c = 'u' then hexEscape? flags 4 rest
    else if c = 'U' then hexEscape? flags 8 rest
    else if c = 'd' then set digits
    else if c = 'D' then others digits
    else if c = 's' then set blanks
    else if c = 'S' then others blanks
    else if c = 'w' then set words
    else if c = 'W' then others words
    else if c = 'A' then look .textStart
    else if c = 'z' then look .textEnd
    else if c = '<' then look (.wordStart flags.wordClass)
    else if c = '>' then look (.wordEnd flags.wordClass)
    else if c = 'B' then look (.insideWord flags.wordClass)
    else if c = 'b' then (boundary? flags rest).map fun (l, after) => (.look l, after)
    else if c.toNat < 0x80 ∧ ¬c.isAlphanum then char c
    else none

/-! ### Classes in brackets -/

def folded (flags : Flags) (s : CharSet) : CharSet :=
  if ¬flags.anyCase then s
  else if flags.unicode then .anyCase s
  else .inter (.anyCase s) (.between '\x00' '\x7f')

/-- Every other character, with the case ignored first. A byte takes no part in it. -/
def complement? (flags : Flags) (s : CharSet) : Option CharSet :=
  if flags.unicode then some (.compl (folded flags s)) else none

/-- The class named between `[:` and `:]`, and what follows it. -/
def posix? (flags : Flags) (cs : List Char) : Option (Option CharSet × List Char) :=
  match cs with
  | ':' :: rest =>
    let (negated, rest) : Bool × List Char :=
      match rest with
      | '^' :: rest => (true, rest)
      | rest => (false, rest)
    let name := rest.takeWhile (· ≠ ':')
    match rest.dropWhile (· ≠ ':') with
    | ':' :: ']' :: after =>
      (CharSet.named? (String.ofList name)).map fun s =>
        (if negated then complement? flags s else some (folded flags s), after)
    | _ => none
  | _ => none

def classItem? (flags : Flags) (cs : List Char) : Option (Escaped × List Char) :=
  match cs with
  | [] => none
  | '\\' :: rest =>
    match escape? flags rest with
    | some (.char c, after) => if flags.allows c then some (.char c, after) else none
    | some (.set s, after) => some (.set s, after)
    | some (.look _, _) | none => none
  | c :: rest => if flags.allows c then some (.char c, rest) else none

inductive SetOp where
  | inter
  | minus
  | differ

def SetOp.apply : SetOp → CharSet → CharSet → CharSet
  | inter, a, b => .inter a b
  | minus, a, b => .minus a b
  | differ, a, b => .differ a b

def setOp? : List Char → Option (SetOp × List Char)
  | '&' :: '&' :: rest => some (.inter, rest)
  | '-' :: '-' :: rest => some (.minus, rest)
  | '~' :: '~' :: rest => some (.differ, rest)
  | _ => none

/-- The items of a class so far: their characters, how many they are and how deep they nest. -/
structure Items where
  chars : CharSet := .nothing
  count : Nat := 0
  depth : Nat := 0

def Items.add (items : Items) (s : CharSet) (depth : Nat) : Items :=
  { chars := .union items.chars s, count := items.count + 1, depth := max items.depth depth }

def Items.nesting (items : Items) : Nat := if 1 < items.count then items.depth + 1 else items.depth

/-- What a set operation leaves of the items on its sides. -/
def Items.closed (flags : Flags) (pending : Option (CharSet × Nat × SetOp)) (items : Items) :
    CharSet × Nat :=
  match pending with
  | none => (items.chars, items.nesting)
  | some (left, depth, op) =>
    (op.apply (folded flags left) (folded flags items.chars), max depth items.nesting + 1)

mutual

/-- A class after its opening bracket, and how deep it nests. -/
def readClass (flags : Flags) : Nat → List Char → Option (CharSet × Nat × List Char)
  | 0, _ => none
  | fuel + 1, cs =>
    let cs := blankFree flags cs
    let (negated, cs) : Bool × List Char :=
      match cs with
      | '^' :: rest => (true, blankFree flags rest)
      | cs => (false, cs)
    let dashes := cs.takeWhile (· = '-')
    let cs := cs.dropWhile (· = '-')
    let opened : Items × List Char :=
      match dashes, cs with
      | [], ']' :: rest => ({ chars := .single ']', count := 1 }, rest)
      | [], cs => ({}, cs)
      | dashes, cs => ({ chars := .single '-', count := dashes.length }, cs)
    match readItems flags fuel none opened.1 opened.2 with
    | none => none
    | some (s, depth, after) =>
      let whole := if negated then complement? flags s else some (folded flags s)
      whole.map (·, depth + 1, after)

/-- Items up to the closing bracket; `pending` is what stands left of a set operation. -/
def readItems (flags : Flags) :
    Nat → Option (CharSet × Nat × SetOp) → Items → List Char → Option (CharSet × Nat × List Char)
  | 0, _, _, _ => none
  | fuel + 1, pending, items, cs =>
    let cs := blankFree flags cs
    let (chars, depth) := items.closed flags pending
    match cs with
    | [] => none
    | ']' :: rest => some (chars, depth, rest)
    | '[' :: rest =>
      match posix? flags rest with
      | some (none, _) => none
      | some (some s, after) => readItems flags fuel pending (items.add s 0) after
      | none =>
        match readClass flags fuel rest with
        | none => none
        | some (s, depth, after) => readItems flags fuel pending (items.add s depth) after
    | cs =>
      match setOp? cs with
      | some (op, after) => readItems flags fuel (some (chars, depth, op)) {} after
      | none =>
        match classItem? flags cs with
        | none => none
        | some (item, after) =>
          let after' := blankFree flags after
          let isRange : Bool :=
            match after' with
            | '-' :: rest =>
              match blankFree flags rest with
              | ']' :: _ | '-' :: _ => false
              | _ => true
            | _ => false
          if isRange then
            match item, classItem? flags (blankFree flags (after'.drop 1)) with
            | .char a, some (.char b, rest) =>
              if a ≤ b then readItems flags fuel pending (items.add (.between a b) 0) rest
              else none
            | _, _ => none
          else
            match item with
            | .char c => readItems flags fuel pending (items.add (.single c) 0) after
            | .set s => readItems flags fuel pending (items.add s 0) after
            | .look _ => none

end

/-! ### Repetitions -/

def opt (a : Regex) (greedy : Bool) : Regex := if greedy then .alt a .empty else .alt .empty a

def plusOf (a : Regex) (greedy : Bool) : Regex :=
  match a with
  | .set s => .run s greedy
  | a => .plus a greedy

def star (a : Regex) (greedy : Bool) : Regex := opt (plusOf a greedy) greedy

def times (a : Regex) : Nat → Regex
  | 0 => .empty
  | 1 => a
  | n + 1 => .cat a (times a n)

/-- At most `n` times. -/
def upTo (a : Regex) (greedy : Bool) : Nat → Regex
  | 0 => .empty
  | 1 => opt a greedy
  | n + 1 => opt (.cat a (upTo a greedy n)) greedy

/-- How often: at least so many times, and at most so many if there is a limit. -/
structure Count where
  least : Nat
  most : Option Nat

def repeatOf (a : Regex) (greedy : Bool) : Count → Regex
  | ⟨least, none⟩ =>
    if least = 0 then star a greedy
    else if least = 1 then plusOf a greedy
    else .cat (times a (least - 1)) (plusOf a greedy)
  | ⟨least, some most⟩ =>
    if least = most then times a least
    else if least = 0 then upTo a greedy most
    else .cat (times a least) (upTo a greedy (most - least))

/-- How many characters, conditions and runs make up an expression. -/
def parts : Regex → Nat
  | .empty | .set _ | .look _ | .run _ _ => 1
  | .cat a b | .alt a b => parts a + parts b
  | .plus a _ | .group _ a => parts a

/-- Repetitions that come to more parts than this are refused. -/
def sizeLimit : Nat := 50000

/-- The greatest number that a count may hold. -/
def maxCount : Nat := 0xFFFFFFFF

def natOf? (cs : List Char) : Option Nat :=
  let cs := Text.trim cs
  let n := cs.foldl (fun n d => n * 10 + (d.toNat - '0'.toNat)) 0
  if ¬cs.isEmpty ∧ cs.all Char.isDigit ∧ n ≤ maxCount then some n else none

/-- A count in braces, after the opening one. -/
def count? (cs : List Char) : Option (Count × List Char) :=
  let body := cs.takeWhile (· ≠ '\x7d')
  match cs.dropWhile (· ≠ '\x7d') with
  | [] => none
  | _ :: after => do
    let first := body.takeWhile (· ≠ ',')
    let least ← natOf? first
    match body.dropWhile (· ≠ ',') with
    | [] => some (⟨least, some least⟩, after)
    | _ :: second =>
      if (Text.trim second).isEmpty then some (⟨least, none⟩, after)
      else
        let most ← natOf? second
        if least ≤ most then some (⟨least, some most⟩, after) else none

/-! ### Groups and flags -/

def setFlag (on : Bool) (f : Flags) (c : Char) : Option Flags :=
  if c = 'i' then some { f with anyCase := on }
  else if c = 'm' then some { f with multiLine := on }
  else if c = 's' then some { f with dotAll := on }
  else if c = 'U' then some { f with swapGreed := on }
  else if c = 'u' then some { f with unicode := on }
  else if c = 'x' then some { f with extended := on }
  else if c = 'R' then some { f with crlf := on }
  else none

/-- Flags up to a colon or a closing parenthesis; each may stand once, and a minus sign
switches off those after it. -/
def readFlags (f : Flags) (on : Bool) (seen : List Char) (dangling : Bool) :
    List Char → Option (Flags × Bool × List Char)
  | [] => none
  | c :: rest =>
    if c = ':' then if dangling then none else some (f, true, rest)
    else if c = ')' then if dangling ∨ seen.isEmpty then none else some (f, false, rest)
    else if c = '-' then if on then readFlags f false seen true rest else none
    else if c ∈ seen then none
    else
      match setFlag on f c with
      | some f => readFlags f on (c :: seen) false rest
      | none => none

/-- What a parenthesis opens. -/
inductive Opening where
  | flags (f : Flags)
  | plain (f : Flags)
  | named (name : String)
  | numbered

def isNameChar (first : Bool) (c : Char) : Bool :=
  c = '_' || (if first then Text.isAlphabetic c
    else Text.isAlphanumeric c || c = '.' || c = '[' || c = ']')

def groupName? (cs : List Char) : Option (String × List Char) :=
  let name := cs.takeWhile (· ≠ '>')
  match cs.dropWhile (· ≠ '>'), name with
  | _ :: after, c :: more =>
    if isNameChar true c && more.all (isNameChar false) then some (String.ofList name, after)
    else none
  | _, _ => none

def opening? (f : Flags) (cs : List Char) : Option (Opening × List Char) :=
  match cs with
  | '?' :: 'P' :: '<' :: rest => (groupName? rest).map fun (n, r) => (.named n, r)
  | '?' :: '<' :: rest => (groupName? rest).map fun (n, r) => (.named n, r)
  | '?' :: rest =>
    (readFlags f true [] false rest).map fun (f, opens, r) =>
      (if opens then .plain f else .flags f, r)
  | cs => some (.numbered, cs)

/-! ### Expressions -/

def literal (f : Flags) (c : Char) : Regex :=
  .set (if f.allows c then folded f (.single c) else .single c)

/-- What a dot takes. Where Unicode is switched off it would be a byte. -/
def dot? (f : Flags) : Option CharSet :=
  if ¬f.unicode then none
  else if f.dotAll then some .all
  else if f.crlf then some (.compl (.ofChars ['\r', '\n']))
  else some .notNewline

def lineStart (f : Flags) : Look :=
  if ¬f.multiLine then .textStart else if f.crlf then .lineStartCrlf else .lineStart

def lineEnd (f : Flags) : Look :=
  if ¬f.multiLine then .textEnd else if f.crlf then .lineEndCrlf else .lineEnd

def quantifier? (f : Flags) (cs : List Char) : Option (Option (Count × Bool × List Char)) :=
  let withGreed (count : Count) (cs : List Char) : Option (Option (Count × Bool × List Char)) :=
    match blankFree f cs with
    | '?' :: rest => some (some (count, f.swapGreed, rest))
    | _ => some (some (count, !f.swapGreed, cs))
  match cs with
  | '*' :: rest => withGreed ⟨0, none⟩ rest
  | '+' :: rest => withGreed ⟨1, none⟩ rest
  | '?' :: rest => withGreed ⟨0, some 1⟩ rest
  | '\x7b' :: rest =>
    match count? rest with
    | some (count, rest) => withGreed count rest
    | none => none
  | _ => some none

/-- The repetitions that follow an expression. -/
def readQuantifiers : Nat → Regex → ReadState → Option (Regex × ReadState)
  | 0, _, _ => none
  | fuel + 1, a, st =>
    let st := st.skip
    match quantifier? st.flags st.rest with
    | none => none
    | some none => some (a, st)
    | some (some (count, greedy, rest)) =>
      if sizeLimit < parts a * count.most.getD count.least then none
      else
        readQuantifiers fuel (repeatOf a greedy count)
          { st with rest := rest, depth := st.depth + 1 }

mutual

/-- Alternatives up to a closing parenthesis or the end; `follows` says whether there is one
before them. -/
def readAlternatives : Nat → Bool → ReadState → Option (Regex × ReadState)
  | 0, _, _ => none
  | fuel + 1, follows, st =>
    match readSequence fuel false st with
    | none => none
    | some (a, st) =>
      match st.rest with
      | '|' :: rest =>
        match readAlternatives fuel true { st with rest := rest } with
        | none => none
        | some (b, last) => some (.alt a b, { last with depth := max (st.depth + 1) last.depth })
      | _ => some (a, if follows then { st with depth := st.depth + 1 } else st)

/-- A sequence up to the end of the alternative; `follows` says whether a part of it is read. -/
def readSequence : Nat → Bool → ReadState → Option (Regex × ReadState)
  | 0, _, _ => none
  | fuel + 1, follows, st =>
    let st := st.skip
    match st.rest with
    | [] => some (.empty, { st with depth := 0 })
    | c :: rest =>
      /- An expression that nests so deep, the repetitions after it, and the rest of the
      sequence. -/
      let piece (a : Regex) (depth : Nat) (st : ReadState) : Option (Regex × ReadState) :=
        match readQuantifiers (st.rest.length + 1) a { st with depth := depth } with
        | none => none
        | some (a, own) =>
          match readSequence fuel true own with
          | none => none
          | some (.empty, st) => some (a, st.after follows own.depth)
          | some (b, st) => some (.cat a b, st.after follows own.depth)
      if c = '|' ∨ c = ')' then some (.empty, { st with depth := 0 })
      else if c = '*' ∨ c = '+' ∨ c = '?' ∨ c = '\x7b' then none
      else if c = '(' then
        match opening? st.flags (blankFree st.flags rest) with
        | none => none
        | some (.flags f, rest) =>
          let st := { st with rest := rest, flags := f }
          let repeats : Bool :=
            match st.skip.rest with
            | d :: _ => d = '*' || d = '+' || d = '?' || d = '\x7b'
            | [] => false
          if repeats then none
          else (readSequence fuel true st).map fun (a, st) => (a, st.after follows 0)
        | some (.plain f, rest) =>
          match readAlternatives fuel false { st with rest := rest, flags := f } with
          | some (a, inner) =>
            match inner.rest with
            | ')' :: rest =>
              piece a (inner.depth + 1) { inner with rest := rest, flags := st.flags }
            | _ => none
          | none => none
        | some (kind, rest) =>
          let named : Option (List String) :=
            match kind with
            | .named n => if n ∈ st.names then none else some (n :: st.names)
            | _ => some st.names
          match named with
          | none => none
          | some names =>
            let index := st.groups + 1
            match readAlternatives fuel false
                { st with rest := rest, groups := index, names := names } with
            | some (a, inner) =>
              match inner.rest with
              | ')' :: rest =>
                piece (.group index a) (inner.depth + 1)
                  { inner with rest := rest, flags := st.flags }
              | _ => none
            | none => none
      else if c = '[' then
        match readClass st.flags (rest.length + 2) rest with
        | none => none
        | some (s, depth, after) => piece (.set s) depth { st with rest := after }
      else if c = '\\' then
        match escape? st.flags rest with
        | none => none
        | some (.char x, after) => piece (literal st.flags x) 0 { st with rest := after }
        | some (.set s, after) => piece (.set s) 0 { st with rest := after }
        | some (.look l, after) => piece (.look l) 0 { st with rest := after }
      else
        let next := { st with rest := rest }
        if c = '.' then
          match dot? st.flags with
          | none => none
          | some s => piece (.set s) 0 next
        else if c = '^' then piece (.look (lineStart st.flags)) 0 next
        else if c = '$' then piece (.look (lineEnd st.flags)) 0 next
        else piece (literal st.flags c) 0 next

end

/-- Expressions that nest deeper than this are refused. -/
def nestLimit : Nat := 250

/-- An expression and how many groups it has. -/
def read? (source : String) : Option (Regex × Nat) :=
  let cs := source.toList
  match readAlternatives (2 * cs.length + 2) false { rest := cs } with
  | some (r, st) => if st.rest.isEmpty ∧ st.depth ≤ nestLimit then some (r, st.groups) else none
  | none => none

end Uplift.Regex
