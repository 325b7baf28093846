import Uplift.Engine.Error

/-!
# Failures of the program

Why the program ends without success. A failure shows as a chain of messages, from what
could not be done to what stood in the way.
-/

namespace Uplift.CommandLine

inductive Failure where
  | unreadable (path : Path) (cause : FileCause)
  | badSettings (path : Path) (error : ConfigError)
  | badRequest (path : Path) (error : ConfigError)
  | noProject (root : Path) (error : FileError)
  | noTestCommand
  | noVersions
  | engine (error : EngineError)
  | unwritable (path : Path) (cause : FileCause)
  | incomplete
  deriving DecidableEq, Repr

def Failure.chain : Failure → List String
  | unreadable path cause => [s!"Failed to read {path}", cause.message]
  | badSettings path error => s!"Invalid settings in {path}" :: error.chain
  | badRequest path error => s!"Invalid migration config in {path}" :: error.cause?.toList
  | noProject root error => s!"Cannot open project at {root}" :: error.chain
  | noTestCommand => ["--test-command is empty"]
  | noVersions => ["--from and --to are required unless set in --config"]
  | engine error => error.chain
  | unwritable path cause => [s!"Failed to write {path}", cause.message]
  | incomplete => ["migration did not complete"]

end Uplift.CommandLine
