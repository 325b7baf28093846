import Uplift.Files.Error
import Uplift.Pattern.Basic
import Uplift.Request

/-!
# Errors of an engine

Why an engine refuses a request. What goes wrong while a plan runs is no such error; it
stands in the result of the run.
-/

namespace Uplift

inductive EngineError where
  | config (error : ConfigError)
  | pattern (error : PatternError)
  | files (error : FileError)
  | notFound (id : String)
  | alreadyRunning (id : String)
  deriving DecidableEq, Repr

namespace EngineError

def message : EngineError → String
  | config error => s!"invalid configuration: {error.message}"
  | pattern error => error.message
  | files error => s!"file scan failed: {error.message}"
  | notFound id => s!"migration '{id}' not found"
  | alreadyRunning id => s!"migration '{id}' is already running"

/-- The message and the causes behind it, the outermost first. -/
def chain (e : EngineError) : List String :=
  match e with
  | config error => e.message :: error.chain
  | files error => e.message :: error.chain
  | pattern _ | notFound _ | alreadyRunning _ => [e.message]

def isConfig : EngineError → Bool
  | config _ => true
  | pattern _ | files _ | notFound _ | alreadyRunning _ => false

end EngineError

end Uplift
