/-!
# Balanced delimiters

Brackets of script code must close in order. Text between quotes and in comments does not
count; a backslash between quotes takes the next character with it, a newline ends a
plain quote but not a backquote. `issue?` names the first thing that is wrong.
-/

namespace Uplift.Delimiters

inductive Issue where
  | unexpected (closing : Char)
  | openTemplate
  | unclosed (opening : Char)
  deriving DecidableEq, Repr

def Issue.message : Issue → String
  | unexpected c => s!"unexpected '{c}'"
  | openTemplate => "unterminated template literal"
  | unclosed c => s!"unclosed '{c}'"

/-- What kind of text a character stands in. -/
inductive Mode where
  | code
  | quoted (quote : Char)
  /-- Behind a backslash between quotes. -/
  | escaped (quote : Char)
  | lineComment
  /-- Between the two characters that open a block comment. -/
  | blockOpening
  /-- `star` says whether a star came just before. -/
  | blockComment (star : Bool)
  deriving DecidableEq, Repr

def isQuote (c : Char) : Bool := c = '\'' || c = '"' || c = '`'

def isOpening (c : Char) : Bool := c = '(' || c = '[' || c = '\x7b'

/-- The bracket that a closing one closes. -/
def opening? : Char → Option Char
  | ')' => some '('
  | ']' => some '['
  | '\x7d' => some '\x7b'
  | _ => none

/-- The mode behind a character of code; `next?` is the character after it. -/
def modeAfterCode (c : Char) (next? : Option Char) : Mode :=
  if isQuote c then .quoted c
  else if c = '/' ∧ next? = some '/' then .lineComment
  else if c = '/' ∧ next? = some '*' then .blockOpening
  else .code

def modeAfterQuoted (quote c : Char) : Mode :=
  if c = '\\' then .escaped quote
  else if c = '\n' ∧ quote ≠ '`' then .code
  else if c = quote then .code
  else .quoted quote

def modeAfter (mode : Mode) (c : Char) (next? : Option Char) : Mode :=
  match mode with
  | .code => modeAfterCode c next?
  | .quoted quote => modeAfterQuoted quote c
  | .escaped quote => .quoted quote
  | .lineComment => if c = '\n' then .code else .lineComment
  | .blockOpening => .blockComment false
  | .blockComment star => if star ∧ c = '/' then .code else .blockComment (c = '*')

/-- Looks at a text with `stack` open in front of it, the innermost bracket first. -/
def scan : Mode → List Char → List Char → Option Issue
  | mode, stack, [] =>
    match mode with
    | .quoted '`' | .escaped '`' => some .openTemplate
    | _ => stack.head?.map .unclosed
  | mode, stack, c :: rest =>
    let next := modeAfter mode c rest.head?
    if mode = .code then
      if isOpening c then scan next (c :: stack) rest
      else
        match opening? c with
        | none => scan next stack rest
        | some o =>
          match stack with
          | top :: below => if top = o then scan next below rest else some (.unexpected c)
          | [] => some (.unexpected c)
    else scan next stack rest

def issue? (content : String) : Option Issue := scan .code [] content.toList

end Uplift.Delimiters
