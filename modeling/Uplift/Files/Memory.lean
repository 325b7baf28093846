import Uplift.Files.Store

/-!
# Files in memory

The files stand in path order, each once, under the spelling with which it came. Some
paths may be read-only. `lookup_put_same` and its companions say what a change does to
the content at each path.
-/

namespace Uplift

abbrev Files := List (Path × String)

namespace Files

def lookup (p : Path) : Files → Option String
  | [] => none
  | (q, content) :: rest => if p.same q then some content else lookup p rest

def put (p : Path) (content : String) : Files → Files
  | [] => [(p, content)]
  | (q, old) :: rest =>
    if p.same q then (q, content) :: rest
    else if p.lt q then (p, content) :: (q, old) :: rest
    else (q, old) :: put p content rest

def erase (p : Path) (files : Files) : Files := files.filter fun (q, _) => !p.same q

def ofList (pairs : List (Path × String)) : Files :=
  pairs.foldl (fun files (p, content) => files.put p content) []

theorem same_congr_left {p q : Path} (h : p.same q = true) (r : Path) : p.same r = q.same r := by
  simp_all [Path.same]

theorem lookup_congr {p q : Path} (h : p.same q = true) (files : Files) :
    lookup p files = lookup q files := by
  induction files with
  | nil => rfl
  | cons entry rest ih => simp [lookup, same_congr_left h, ih]

theorem lookup_put_same {p q : Path} (h : q.same p = true) (content : String) (files : Files) :
    lookup q (put p content files) = some content := by
  rw [lookup_congr h]
  fun_induction put p content files <;> simp_all [lookup, Path.same_refl]

theorem lookup_put_other {p q : Path} (h : q.same p = false) (content : String)
    (files : Files) : lookup q (put p content files) = lookup q files := by
  fun_induction put p content files with
  | case1 => simp [lookup, h]
  | case2 r old rest hr =>
    have : q.same r = false := by
      simp only [Path.same, decide_eq_true_eq, decide_eq_false_iff_not] at *
      exact hr ▸ h
    simp [lookup, this]
  | case3 => simp [lookup, h]
  | case4 => simp_all [lookup]

theorem lookup_erase_same {p q : Path} (h : q.same p = true) (files : Files) :
    lookup q (erase p files) = none := by
  induction files with
  | nil => rfl
  | cons entry rest ih =>
    have hq := same_congr_left h entry.1
    cases he : p.same entry.1 <;> simp_all [erase, lookup]

theorem lookup_erase_other {p q : Path} (h : q.same p = false) (files : Files) :
    lookup q (erase p files) = lookup q files := by
  induction files with
  | nil => rfl
  | cons entry rest ih =>
    cases he : p.same entry.1 with
    | false => simp_all [erase, lookup]
    | true =>
      have : q.same entry.1 = false := by
        simp only [Path.same, decide_eq_true_eq, decide_eq_false_iff_not] at *
        exact he ▸ h
      simp_all [erase, lookup]

end Files

structure Memory where
  files : Files := []
  readOnly : List Path := []
  /-- Writes that came through; changes by hand do not count. -/
  writes : Nat := 0
  deriving DecidableEq, Repr, Inhabited

namespace Memory

def get? (m : Memory) (p : Path) : Option String := m.files.lookup p

/-- Puts a file there by hand. -/
def insert (m : Memory) (p : Path) (content : String) : Memory :=
  { m with files := m.files.put p content }

/-- Makes a path read-only. -/
def deny (m : Memory) (p : Path) : Memory := { m with readOnly := p :: m.readOnly }

def denies (m : Memory) (p : Path) : Bool := m.readOnly.any p.same

def read (m : Memory) (p : Path) : Except FileError String :=
  match m.get? p with
  | some content => .ok content
  | none => .error (.missing p)

def write (m : Memory) (p : Path) (content : String) : Except FileError Memory :=
  if m.denies p then .error (.unwritable p .readOnly)
  else .ok { m with files := m.files.put p content, writes := m.writes + 1 }

def remove (m : Memory) (p : Path) : Except FileError Memory :=
  if m.denies p then .error (.unwritable p .readOnly)
  else .ok { m with files := m.files.erase p }

def list (m : Memory) (r : Request) : Except FileError (List Path) := do
  let filter ← PathFilter.ofRequest r
  return (m.files.map (·.1)).filter filter.accepts

instance : FileStore Memory where
  read := read
  write := write
  remove := remove
  isFile m p := (m.get? p).isSome
  list := list

end Memory

end Uplift
