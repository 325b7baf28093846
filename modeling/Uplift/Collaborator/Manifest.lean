import Uplift.Collaborator.Document

/-!
# Package manifests

A manifest lists packages in four tables. Packages that a step needs and no table lists
are added to the table of plain dependencies; what is listed stays as it is.
-/

namespace Uplift.Manifest

/-- A package as a step names it: `name` or `name@version`. -/
structure Package where
  name : String
  version : Option String
  deriving DecidableEq, Repr

/-- The version follows the last `@`; one at the start belongs to the name. -/
def Package.parse (text : String) : Package :=
  let cs := text.toList.reverse
  let version := cs.takeWhile (· ≠ '@')
  match cs.dropWhile (· ≠ '@') with
  | '@' :: name =>
    if name.isEmpty then ⟨text, none⟩
    else ⟨String.ofList name.reverse, some (String.ofList version.reverse)⟩
  | _ => ⟨text, none⟩

/-- The versions that will do. -/
def Package.range (p : Package) : String :=
  match p.version with
  | some version => "^" ++ version
  | none => "*"

/-- The table that gets new packages. -/
def mainTable : String := "dependencies"

def tables : List String :=
  [mainTable, "devDependencies", "peerDependencies", "optionalDependencies"]

/-- Whether a table of the manifest is an object with this name in it. -/
def lists (manifest : Json.Members) (name : String) : Bool :=
  tables.any fun table =>
    match (manifest.get? table).bind Json.asObject? with
    | some packages => packages.has name
    | none => false

/-- Adds a package that is not listed; none if the table is no object. -/
def add? (manifest : Json.Members) (p : Package) : Option Json.Members :=
  if lists manifest p.name then some manifest
  else
    match (manifest.get? mainTable).getD (.object []) with
    | .object packages =>
      let packages := Keyed.insert p.name (.string p.range) packages
      some (manifest.insert mainTable (.object packages))
    | _ => none

def addAll? (manifest : Json.Members) (packages : List Package) : Option Json.Members :=
  packages.foldlM add? manifest

/-- Adds what a step needs to the manifest at its path. -/
def update {σ : Type} [FileStore σ] (s : Step) : Call σ Unit := .change fun store => do
  let manifest ← JsonFile.read store s.path
  match addAll? manifest (s.dependencies.map Package.parse) with
  | some manifest => JsonFile.write store s.path manifest
  | none => .error (.badJson s.path "\"dependencies\" is not an object")

end Uplift.Manifest
