import Uplift.Files.Disk

/-!
# Walking a tree

Source files below a directory are listed unless they are hidden, left out by an ignore
file on their way, or in a directory that is never looked at. A file is reached only if
none of the directories on its way is left out.
-/

namespace Uplift

namespace Walk

/-- Names that are never looked at. -/
def skippedNames : List String :=
  ["node_modules", "dist", "build", ".git", "coverage", "__pycache__", ".turbo", ".next",
    ".nuxt", ".codemig"]

def sourceExtensions : List String :=
  ["js", "jsx", "mjs", "cjs", "ts", "tsx", "json", "css", "scss", "less"]

def isSource (names : Location) : Bool :=
  match names.getLast?.map Path.splitExtension with
  | some (_, some extension) => extension ∈ sourceExtensions
  | _ => false

def isSkipped (extra : List String) (names : Location) : Bool :=
  names.any fun name => name ∈ skippedNames || name ∈ extra

def rulesAt (d : Disk) (l : Location) : List IgnoreRule :=
  match d.entryAt? l with
  | some (.file (.text s)) => IgnoreRule.ofText s
  | _ => []

/-- A directory and those above it, the nearest first, each with the rest of the way. -/
def waysUp : Location → List (Location × Location)
  | [] => []
  | name :: rest => ((waysUp rest).map fun (dir, way) => (name :: dir, way)) ++ [([], name :: rest)]

def pathBytes (names : Location) : Bytes := bytesOf ("/".intercalate names).toList

/-- The verdict of the nearest ignore file of this name that has one. -/
def verdictOf? (d : Disk) (file : Location) (l : Location) (isDir : Bool) : Option Bool :=
  (waysUp l).findSome? fun (dir, way) =>
    IgnoreRule.verdict? (rulesAt d (dir ++ file)) (pathBytes way) isDir

def verdict? (d : Disk) (l : Location) (isDir : Bool) : Option Bool :=
  [[".ignore"], [".gitignore"], [".git", "info", "exclude"]].findSome? fun file =>
    verdictOf? d file l isDir

def isHidden (l : Location) : Bool := (l.getLast?.bind (·.toList.head?)) = some '.'

/-- Whether the walk passes something that it comes to. -/
def admits (d : Disk) (l : Location) (isDir : Bool) : Bool := (verdict? d l isDir).getD !isHidden l

/-- Whether the walk from `start` comes to a file `way` below it. -/
def reaches (d : Disk) (start : Location) : Location → Bool
  | [] => true
  | name :: rest =>
    admits d (start ++ [name]) !rest.isEmpty && reaches d (start ++ [name]) rest

/-- The way from a directory to something below it. -/
def below? : Location → Location → Option Location
  | [], l => some l
  | a :: start, b :: l => if a = b then below? start l else none
  | _ :: _, [] => none

def pathOf (names : Location) : Path := ⟨"/".intercalate names⟩

/-- The files that a walk from `start` comes to, by their ways, and those without a text name. -/
def filesFrom (d : Disk) (start : Location) : List (Location × Bool) :=
  d.entries.filterMap fun (l, e) =>
    match below? start l, e with
    | some way, .file _ => if reaches d start way then some (way, true) else none
    | some way, .oddFile => if reaches d start way then some (way, false) else none
    | _, _ => none

end Walk

/-- A directory that is walked for source files. -/
structure Scanner where
  root : Path
  start : Location
  skipped : List String := []
  deriving DecidableEq, Repr, Inhabited

namespace Scanner

/-- Opens a directory of a disk. -/
def open? (d : Disk) (p : Path) : Except FileError Scanner :=
  let shown := if p.text.isEmpty then d.root else d.root.join p
  match d.lookUp p with
  | .ok .dir =>
    match (Disk.routeOf p).bind d.resolve with
    | .ok l => .ok { root := shown, start := l }
    | .error e => .error (.setup s!"cannot open {shown}: {e.message}")
  | .ok _ => .error (.setup s!"{shown} is not a directory")
  | .error e => .error (.setup s!"cannot open {shown}: {e.message}")

def list (s : Scanner) (d : Disk) (r : Request) : Except FileError (List Path) := do
  let filter ← PathFilter.ofRequest r
  let found := Walk.filesFrom d s.start
  match found.find? fun (_, isText) => !isText with
  | some (way, _) => .error (.notUnicode (s.root.join (Walk.pathOf way)).text)
  | none =>
    let wanted (way : Location) : Bool :=
      Walk.isSource way && !Walk.isSkipped s.skipped way && filter.accepts (Walk.pathOf way)
    return Path.sortedSet (((found.map (·.1)).filter wanted).map Walk.pathOf)

end Scanner

instance : FileStore Disk where
  read := Disk.read
  write := Disk.write
  remove := Disk.remove
  isFile := Disk.isFile
  list d r := Scanner.list { root := d.root, start := d.base } d r

end Uplift
