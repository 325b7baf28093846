import Std.Time.DateTime
import Uplift.CommandLine.Program
import Uplift.Files.Change
import Uplift.Plan.Id

/-!
# The executable

Reads the tree below the working directory, runs the program on it and writes back what
changed. Links are left alone, and paths that leave the tree are not there.
-/

namespace Uplift.Executable

/-- The path of a location, relative to the working directory. -/
def pathText (l : Location) : String := "/".intercalate ("." :: l)

/-- The entries below a directory, the directories before what they hold. -/
partial def entriesBelow (l : Location) : IO (List (Location × Entry)) := do
  let here ← IO.FS.realPath (pathText l)
  let mut found := []
  for e in ← here.readDir do
    let place := l ++ [e.fileName]
    match (← e.path.symlinkMetadata).type with
    | .dir => found := found ++ (place, .dir) :: (← entriesBelow place)
    | .file =>
      let bytes ← IO.FS.readBinFile e.path
      found := found ++ [(place, .file (Disk.Content.ofBytes bytes.toList))]
    | _ => pure ()
  return found

def contentBytes : Content → ByteArray
  | .text s => s.toUTF8
  | .bytes bs => ⟨bs.toArray⟩

def apply : Change → IO Unit
  | .makeDir l => IO.FS.createDirAll (pathText l)
  | .write l content => IO.FS.writeBinFile (pathText l) (contentBytes content)
  | .remove l => IO.FS.removeFile (pathText l)

/-- The variables that stand in for flags. -/
def environment : IO (Keyed String) := do
  let mut env : Keyed String := []
  for name in CommandLine.Flag.all.filterMap CommandLine.Flag.envName? do
    if let some value ← IO.getEnv name then env := env.insert name value
  return env

def now : IO Timestamp := do
  let moment ← Std.Time.Timestamp.now
  let nanos := moment.toNanosecondsSinceUnixEpoch.val
  return ⟨nanos.fdiv 1000000000, (nanos.fmod 1000000000).toNat⟩

def showErrors : List String → IO Unit
  | [] => pure ()
  | message :: causes => do
    IO.eprintln s!"Error: {message}"
    for cause in causes do
      IO.eprintln s!"  caused by: {cause}"

end Uplift.Executable

open Uplift Uplift.Executable in
def main (args : List String) : IO UInt32 := do
  let before : Disk := { root := ⟨""⟩, entries := ← entriesBelow [] }
  let id := PlanId.ofBytes (← IO.getRandomBytes 16).toList
  let ending := CommandLine.run { args := args, env := ← environment, id := id, now := ← now } before
  (before.changesTo ending.disk).forM apply
  IO.print ending.output
  showErrors ending.errors
  if ending.code = 2 then IO.eprint CommandLine.helpText
  return ending.code.toUInt32
