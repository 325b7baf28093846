import Uplift.Files.IgnoreRule
import Uplift.Files.Store

/-!
# Files on disk

A tree of directories. Paths start from a base in it; their names are looked up one after
the other, and the errors are those of the system. `readAt`, `writeAt` and `removeAt` work
on a path; `saveAt` writes only into a directory that is there.
-/

namespace Uplift

/-- What a file holds: text, or bytes that are no text. -/
inductive Content where
  | text (s : String)
  | bytes (bs : List UInt8)
  deriving DecidableEq, Repr, Inhabited

inductive Entry where
  | file (content : Content)
  | dir
  /-- A file whose name is no text; it is shown under the name it stands at. -/
  | oddFile
  deriving DecidableEq, Repr, Inhabited

inductive NodeKind where
  | file
  | dir
  deriving DecidableEq, Repr, Inhabited

/-- Where something is, by the names from the top of the tree. -/
abbrev Location := List String

structure Disk where
  /-- The path of the base, as messages show it. -/
  root : Path
  /-- The directory that paths start from. -/
  base : Location := []
  entries : List (Location × Entry) := []
  deriving Repr, Inhabited

namespace Disk

def entryAt? (d : Disk) (l : Location) : Option Entry :=
  if l = [] then some .dir else (d.entries.find? (·.1 = l)).map (·.2)

def isDirAt (d : Disk) (l : Location) : Bool := d.entryAt? l = some .dir

def set (d : Disk) (l : Location) (e : Entry) : Disk :=
  { d with entries := (d.entries.filter (·.1 ≠ l)) ++ [(l, e)] }

def erase (d : Disk) (l : Location) : Disk :=
  { d with entries := d.entries.filter (·.1 ≠ l) }

/-! ### Looking up paths -/

def maxNameBytes : Nat := 255

/-- A path taken apart: its names, dots left out, and whether it must be a directory. -/
structure Route where
  names : List String
  mustBeDir : Bool
  deriving DecidableEq, Repr, Inhabited

def Route.ofPath (p : Path) : Route :=
  let parts := Text.splitAll '/' p.text.toList
  let last := parts.getLast?.getD []
  { names := (parts.filter fun part => part ≠ [] ∧ part ≠ ['.']).map String.ofList
    mustBeDir := last = [] || last = ['.'] || last = ['.', '.'] }

/-- The directory that names lead to from `here`. -/
def enter (d : Disk) (here : Location) : List String → Except FileCause Location
  | [] => .ok here
  | name :: rest =>
    if name = ".." then
      if here.isEmpty then .error .notFound else enter d here.dropLast rest
    else if name.utf8ByteSize > maxNameBytes then .error .nameTooLong
    else
      match d.entryAt? (here ++ [name]) with
      | some .dir => enter d (here ++ [name]) rest
      | some (.file _) => .error .notDirectory
      | some .oddFile | none => .error .notFound

/-- What a route leads to, if its directories are there. -/
def resolve (d : Disk) (r : Route) : Except FileCause Location :=
  match r.names.getLast? with
  | none => .ok d.base
  | some ".." => d.enter d.base r.names
  | some name => do
    let parent ← d.enter d.base r.names.dropLast
    if name.utf8ByteSize > maxNameBytes then .error .nameTooLong
    else return parent ++ [name]

/-- Absolute paths lead nowhere. -/
def routeOf (p : Path) : Except FileCause Route :=
  if p.text.toList.contains '\x00' then .error .nulByte
  else if p.isAbsolute then .error .notFound
  else .ok (Route.ofPath p)

/-- What is at a path. -/
def lookUp (d : Disk) (p : Path) : Except FileCause Entry := do
  let route ← routeOf p
  let l ← d.resolve route
  match d.entryAt? l with
  | some .dir => return .dir
  | some (.file content) => if route.mustBeDir then .error .notDirectory else return .file content
  | some .oddFile | none => .error .notFound

def kindAt? (d : Disk) (p : Path) : Option NodeKind :=
  match d.lookUp p with
  | .ok .dir => some .dir
  | .ok _ => some .file
  | .error _ => none

def readAt (d : Disk) (p : Path) : Except FileCause String := do
  match ← d.lookUp p with
  | .file (.text s) => return s
  | .file (.bytes _) => .error .notUtf8
  | .dir => .error .isDirectory
  | .oddFile => .error .notFound

/-! ### Changes -/

/-- Makes the directories on the way from `here`. -/
def makeDirs (d : Disk) (here : Location) : List String → Except FileCause (Disk × Location)
  | [] => .ok (d, here)
  | name :: rest =>
    if name = ".." then
      if here.isEmpty then .error .notFound else makeDirs d here.dropLast rest
    else if name.utf8ByteSize > maxNameBytes then .error .nameTooLong
    else
      let l := here ++ [name]
      match d.entryAt? l with
      | some .dir => makeDirs d l rest
      | some (.file _) | some .oddFile =>
        .error (if rest.isEmpty then .occupied else .notDirectory)
      | none => makeDirs (d.set l .dir) l rest

/-- The names of the directory that a file goes into. -/
def parentNames (r : Route) : List String := r.names.dropLast

/-- Puts a file into a directory under the last name of its route. -/
def putFile (d : Disk) (parent : Location) (r : Route) (content : Content) :
    Except FileCause Disk :=
  match r.names.getLast? with
  | none | some ".." => .error .isDirectory
  | some name =>
    if name.utf8ByteSize > maxNameBytes then .error .nameTooLong
    else
      let l := parent ++ [name]
      if r.mustBeDir || d.isDirAt l then .error .isDirectory else .ok (d.set l (.file content))

/-- Writes a file and makes the directories on the way. -/
def writeAt (d : Disk) (p : Path) (content : Content) : Except FileCause Disk := do
  let route ← routeOf p
  let (d, parent) ← d.makeDirs d.base (parentNames route)
  d.putFile parent route content

/-- Writes a file into a directory that is there. -/
def saveAt (d : Disk) (p : Path) (content : Content) : Except FileCause Disk := do
  let route ← routeOf p
  let parent ← d.enter d.base (parentNames route)
  d.putFile parent route content

/-- Takes a file away; what is not there counts as taken away. -/
def removeAt (d : Disk) (p : Path) : Except FileCause Disk := do
  let route ← routeOf p
  match d.resolve route with
  | .error .notFound => return d
  | .error e => .error e
  | .ok l =>
    match d.entryAt? l with
    | some .dir => .error .isDirectory
    | some (.file _) => if route.mustBeDir then .error .notDirectory else return d.erase l
    | some .oddFile | none => return d

/-! ### Building trees -/

def Content.ofBytes (bs : List UInt8) : Content :=
  match String.fromUTF8? ⟨bs.toArray⟩ with
  | some s => .text s
  | none => .bytes bs

/-- Puts a file in place, with the directories on the way, if they can be made. -/
def place (d : Disk) (p : Path) (content : Content) : Disk := (d.writeAt p content).toOption.getD d

def placeDir (d : Disk) (p : Path) : Disk :=
  match d.makeDirs d.base (Route.ofPath p).names with
  | .ok (d, _) => d
  | .error _ => d

/-- The tree with paths starting from a directory in it. -/
def startingAt (d : Disk) (root : Path) (base : Location) : Disk :=
  { d with root := root, base := base }

/-- The files by their paths from the top of the tree. -/
def files (d : Disk) : List (String × Content) :=
  d.entries.filterMap fun (l, e) =>
    match e with
    | .file content => some ("/".intercalate l, content)
    | .dir | .oddFile => none

/-! ### As a store -/

def read (d : Disk) (p : Path) : Except FileError String :=
  match d.readAt p with
  | .ok s => .ok s
  | .error .notFound => .error (.missing p)
  | .error cause => .error (.unreadable p cause)

def write (d : Disk) (p : Path) (content : String) : Except FileError Disk :=
  match d.writeAt p (.text content) with
  | .ok d => .ok d
  | .error cause => .error (.unwritable p cause)

def remove (d : Disk) (p : Path) : Except FileError Disk :=
  match d.removeAt p with
  | .ok d => .ok d
  | .error .notFound => .ok d
  | .error cause => .error (.unwritable p cause)

def isFile (d : Disk) (p : Path) : Bool :=
  match d.lookUp p with
  | .ok (.file _) => true
  | _ => false

end Disk

end Uplift
