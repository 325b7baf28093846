import Uplift.Text.Search

/-!
# Paths

A path keeps the spelling it was given, but it is compared by components: `a//b`,
`a/./b` and `a/b/` name the same file as `a/b`. Components order as root, `.`, `..`, names.
-/

namespace Uplift

inductive Component where
  | root
  | here
  | up
  | name (s : String)
  deriving DecidableEq, Repr

namespace Component

def rank : Component → Nat
  | root => 0
  | here => 1
  | up => 2
  | name _ => 3

def cmp : Component → Component → Ordering
  | name a, name b => compare a b
  | a, b => compare a.rank b.rank

end Component

structure Path where
  text : String
  deriving DecidableEq, Repr, Inhabited

namespace Path

instance : ToString Path := ⟨Path.text⟩

def isAbsolute (p : Path) : Bool := p.text.toList.head? == some '/'

def componentOf (part : List Char) : Option Component :=
  if part = [] ∨ part = ['.'] then none
  else if part = ['.', '.'] then some .up
  else some (.name (String.ofList part))

/-- Empty parts and dots vanish, but for a dot that leads the path. -/
def components (p : Path) : List Component :=
  let parts := Text.splitAll '/' p.text.toList
  if p.isAbsolute then .root :: parts.filterMap componentOf
  else if parts.head? = some ['.'] then .here :: parts.tail.filterMap componentOf
  else parts.filterMap componentOf

def cmpComponents : List Component → List Component → Ordering
  | [], [] => .eq
  | [], _ :: _ => .lt
  | _ :: _, [] => .gt
  | a :: as, b :: bs => (a.cmp b).then (cmpComponents as bs)

def cmp (p q : Path) : Ordering := cmpComponents p.components q.components

/-- Whether two spellings name the same file. -/
def same (p q : Path) : Bool := p.components = q.components

def lt (p q : Path) : Bool := p.cmp q == .lt

/-- `q` below `p`; an absolute `q` stands alone. -/
def join (p q : Path) : Path :=
  if q.isAbsolute then q
  else if p.text.isEmpty then q
  else if p.text.toList.getLast? = some '/' then ⟨p.text ++ q.text⟩
  else ⟨p.text ++ "/" ++ q.text⟩

def fileName? (p : Path) : Option String :=
  match p.components.getLast? with
  | some (.name s) => some s
  | _ => none

/-- A name before and after its last dot; a leading dot alone does not count. -/
def splitExtension (name : String) : String × Option String :=
  let cs := name.toList.reverse
  let extension := cs.takeWhile (· ≠ '.')
  match cs.dropWhile (· ≠ '.') with
  | '.' :: stem =>
    if stem.isEmpty then (name, none)
    else (String.ofList stem.reverse, some (String.ofList extension.reverse))
  | _ => (name, none)

/-- Blank components at the end of a reversed spelling. -/
def dropTail : Nat → List Char → List Char
  | 0, cs => cs
  | fuel + 1, cs =>
    match cs with
    | [] => []
    | '/' :: rest => if rest.isEmpty then cs else dropTail fuel rest
    | '.' :: '/' :: rest => if rest.isEmpty then ['/'] else dropTail fuel rest
    | cs => cs

/-- The path without its last component, in the spelling of what is left. -/
def parent? (p : Path) : Option Path :=
  match p.components.getLast? with
  | none | some .root => none
  | some _ =>
    let cs := p.text.toList.reverse
    let fuel := cs.length
    let rest := (dropTail fuel cs).dropWhile (· ≠ '/')
    some ⟨String.ofList (dropTail fuel rest).reverse⟩

/-- The paths in ascending order, each file once under its first spelling. -/
def insertSorted (p : Path) : List Path → List Path
  | [] => [p]
  | q :: rest =>
    match p.cmp q with
    | .lt => p :: q :: rest
    | .eq => q :: rest
    | .gt => q :: insertSorted p rest

def sortedSet (ps : List Path) : List Path := ps.foldl (fun acc p => insertSorted p acc) []

theorem same_refl (p : Path) : p.same p = true := by simp [same]

theorem same_comm (p q : Path) : p.same q = q.same p := decide_eq_decide.mpr eq_comm

theorem same_symm {p q : Path} (h : p.same q = true) : q.same p = true := by
  simp_all [same]

end Path

end Uplift
