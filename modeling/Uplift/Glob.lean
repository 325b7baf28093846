/-!
# Globs

`*` stands for any text, also across slashes, `?` for one character, `[..]` for a
character of a set, and `**` between slashes for any number of directories.
`matchTokens` gives the meaning, token by token.
-/

namespace Uplift

namespace Glob

inductive Range where
  | one (c : Char)
  | between (first last : Char)
  deriving DecidableEq, Repr

inductive Token where
  | char (c : Char)
  | anyChar
  | anyText
  | anyDirectories
  | within (set : List Range)
  | outside (set : List Range)
  deriving DecidableEq, Repr

/-- Why a text is no glob. -/
inductive Error where
  | wildcards
  | recursiveWildcards
  | invalidRange
  deriving DecidableEq, Repr

def Error.message : Error → String
  | wildcards => "wildcards are either regular `*` or recursive `**`"
  | recursiveWildcards => "recursive wildcards must form a single path component"
  | invalidRange => "invalid range pattern"

end Glob

structure Glob where
  source : String
  tokens : List Glob.Token
  deriving DecidableEq, Repr

namespace Glob

def ranges : List Char → List Range
  | a :: '-' :: b :: rest => .between a b :: ranges rest
  | a :: rest => .one a :: ranges rest
  | [] => []

def Range.holds (c : Char) : Range → Bool
  | one a => c == a
  | between a b => a ≤ c && c ≤ b

/-- A set ends at the first closing bracket after its first character. -/
def setOf? : List Char → Option (Token × List Char)
  | '!' :: x :: rest => close x rest .outside
  | '!' :: [] => none
  | x :: rest => close x rest .within
  | [] => none
where
  close (x : Char) (rest : List Char) (make : List Range → Token) : Option (Token × List Char) :=
    match rest.dropWhile (· ≠ ']') with
    | [] => none
    | _ :: after => some (make (ranges (x :: rest.takeWhile (· ≠ ']'))), after)

def cons (t : Token) (ts : List Token) : List Token :=
  if t = .anyDirectories ∧ ts.head? = some .anyDirectories then ts else t :: ts

/-- Tokens of a glob; `before` is the character in front of it. -/
def tokenize : Nat → Option Char → List Char → Except Error (List Token)
  | 0, _, _ => .ok []
  | _, _, [] => .ok []
  | fuel + 1, before, c :: rest =>
    if c = '?' then (tokenize fuel (some c) rest).map (cons .anyChar)
    else if c = '*' then
      let stars := 1 + (rest.takeWhile (· = '*')).length
      let after := rest.dropWhile (· = '*')
      if stars = 1 then (tokenize fuel (some '*') after).map (cons .anyText)
      else if stars > 2 then .error .wildcards
      else if before ≠ none ∧ before ≠ some '/' then .error .recursiveWildcards
      else
        match after with
        | [] => .ok [.anyDirectories]
        | d :: after =>
          if d = '/' then (tokenize fuel (some '/') after).map (cons .anyDirectories)
          else .error .recursiveWildcards
    else if c = '[' then
      match setOf? rest with
      | some (t, after) => (tokenize fuel (some ']') after).map (cons t)
      | none => .error .invalidRange
    else (tokenize fuel (some c) rest).map (cons (.char c))

def compile (source : String) : Except Error Glob :=
  (tokenize (source.toList.length + 1) none source.toList).map (⟨source, ·⟩)

def Token.accepts (c : Char) : Token → Bool
  | char a => c == a
  | anyChar | anyText | anyDirectories => true
  | within set => set.any (·.holds c)
  | outside set => !set.any (·.holds c)

/-- A text and all its ends. -/
def suffixes : List Char → List (List Char)
  | [] => [[]]
  | c :: cs => (c :: cs) :: suffixes cs

/-- What follows each slash. -/
def afterSlashes : List Char → List (List Char)
  | [] => []
  | c :: cs => if c = '/' then cs :: afterSlashes cs else afterSlashes cs

/-- Directories may take a text up to one of its slashes, or all of it. -/
def matchTokens : List Token → List Char → Bool
  | [], cs => cs.isEmpty
  | .anyText :: ts, cs => (suffixes cs).any (matchTokens ts)
  | .anyDirectories :: ts, cs =>
    matchTokens ts cs || (afterSlashes cs).any (matchTokens ts) || matchTokens ts []
  | _ :: _, [] => false
  | t :: ts, c :: cs => t.accepts c && matchTokens ts cs

def matchText (g : Glob) (text : String) : Bool := matchTokens g.tokens text.toList

end Glob

end Uplift
