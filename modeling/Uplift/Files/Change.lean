import Uplift.Files.Disk

/-!
# Changes of a tree

What has to be done to a tree to make it another one. Directories come before the files
in them; no directory is taken away.
-/

namespace Uplift

inductive Change where
  | makeDir (l : Location)
  | write (l : Location) (content : Content)
  | remove (l : Location)
  deriving DecidableEq, Repr

namespace Disk

def additions (before after : Disk) : List Change :=
  after.entries.filterMap fun (l, e) =>
    if before.entryAt? l = some e then none
    else
      match e with
      | .dir => some (.makeDir l)
      | .file content => some (.write l content)
      | .oddFile => none

def removals (before after : Disk) : List Change :=
  before.entries.filterMap fun (l, e) =>
    match e, after.entryAt? l with
    | .file _, none => some (.remove l)
    | _, _ => none

def changesTo (before after : Disk) : List Change := additions before after ++ removals before after

end Disk

end Uplift
