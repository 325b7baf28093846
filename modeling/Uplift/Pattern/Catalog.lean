import Uplift.Pattern.Builtin

/-!
# Catalogs

A catalog holds patterns under distinct ids and remembers the order in which they came.
A pattern that fails its self-test does not get in.
-/

namespace Uplift

structure Catalog where
  byId : List (String × Pattern) := []
  order : List String := []

namespace Catalog

def get? (c : Catalog) (id : String) : Option Pattern :=
  (c.byId.find? (·.1 = id)).map (·.2)

def register (c : Catalog) (p : Pattern) : Except PatternError Catalog := do
  if (c.get? p.id).isSome then .error (.duplicate p.id)
  p.selfTest
  return { byId := (p.id, p) :: c.byId, order := c.order ++ [p.id] }

/-- Takes a pattern out and gives it back. -/
def remove (c : Catalog) (id : String) : Except PatternError (Pattern × Catalog) :=
  match c.get? id with
  | none => .error (.notFound id)
  | some p =>
    .ok (p, { byId := c.byId.filter (·.1 ≠ id), order := c.order.filter (· ≠ id) })

/-- The patterns in the order in which they came. -/
def all (c : Catalog) : List Pattern := c.order.filterMap c.get?

def ofCategory (c : Catalog) (category : Category) : List Pattern :=
  c.all.filter (·.category = category)

def size (c : Catalog) : Nat := c.order.length

/-- The patterns that fail their self-test, by id. -/
def failing (c : Catalog) : List (String × PatternError) :=
  c.all.filterMap fun p =>
    match p.selfTest with
    | .ok () => none
    | .error e => some (p.id, e)

def ofPatterns (ps : List Pattern) : Except PatternError Catalog :=
  ps.foldlM (fun c p => c.register p) ({} : Catalog)

def withBuiltin : Except PatternError Catalog := ofPatterns Pattern.builtin

/-- The catalog of the built-in patterns, none of which is refused. -/
def builtin : Catalog := withBuiltin.toOption.getD {}

end Catalog

end Uplift
