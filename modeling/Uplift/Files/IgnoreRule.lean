import Uplift.Files.IgnoreGlob
import Uplift.Text.Class
import Uplift.Text.Lines

/-!
# Rules of ignore files

Each line of an ignore file leaves files out, or, behind an exclamation mark, takes them
in again. A rule with a slash counts from the directory of its file, any other at every
depth; one that ends in a slash is for directories only. The last rule that fits decides.
-/

namespace Uplift

structure IgnoreRule where
  pieces : List IgnoreGlob.Piece
  keeps : Bool
  onlyDirs : Bool
  deriving Inhabited

namespace IgnoreRule

def trimEnd (cs : List Char) : List Char := (cs.reverse.dropWhile Text.isBlank).reverse

def dropLast? (c : Char) (cs : List Char) : Option (List Char) :=
  if cs.getLast? = some c then some cs.dropLast else none

/-- The line of a rule without its blanks, none for an empty line or a comment. -/
def bodyOf? (line : List Char) : Option (List Char) :=
  let isEscapedBlank := ['\\', ' '].isSuffixOf line
  let body := if isEscapedBlank then line else trimEnd line
  if line.head? = some '#' ∨ body.isEmpty then none else some body

/-- The glob that a rule stands for, over paths below the directory of its file. -/
def globOf (anchored : Bool) (glob : List Char) : List Char :=
  let isDeep := Text.startsWith ['*', '*', '/'] glob || glob = ['*', '*']
  let glob := if !anchored && !glob.contains '/' && !isDeep then ['*', '*', '/'] ++ glob else glob
  if ['/', '*', '*'].isSuffixOf glob then glob ++ ['/', '*'] else glob

def parse? (line : List Char) : Option IgnoreRule := do
  let body ← bodyOf? line
  let isEscaped := Text.startsWith ['\\', '!'] body || Text.startsWith ['\\', '#'] body
  let keeps := !isEscaped && body.head? = some '!'
  let body := if isEscaped || keeps then body.drop 1 else body
  let anchored := body.head? = some '/'
  let body := if anchored && !isEscaped then body.drop 1 else body
  let (onlyDirs, glob) :=
    match dropLast? '/' body with
    | some glob => (true, (dropLast? '\\' glob).getD glob)
    | none => (false, body)
  let pieces ← IgnoreGlob.read? (globOf anchored glob)
  return { pieces, keeps, onlyDirs }

/-- The rules of an ignore file; malformed lines are passed over. -/
def ofText (text : String) : List IgnoreRule :=
  let cs := text.toList
  let cs := if cs.head? = some '\ufeff' then cs.drop 1 else cs
  (Text.lines cs).filterMap parse?

def fits (r : IgnoreRule) (path : Bytes) (isDir : Bool) : Bool :=
  (isDir || !r.onlyDirs) && IgnoreGlob.matchPieces r.pieces path

/-- Whether a path is kept or left out; none if no rule fits. -/
def verdict? (rules : List IgnoreRule) (path : Bytes) (isDir : Bool) : Option Bool :=
  (rules.reverse.find? (·.fits path isDir)).map (·.keeps)

end IgnoreRule

end Uplift
