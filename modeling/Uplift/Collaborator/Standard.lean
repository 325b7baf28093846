import Uplift.Collaborator.Backup
import Uplift.Collaborator.BuildConfig
import Uplift.Collaborator.Manifest
import Uplift.Settings

/-!
# The collaborators that come with the library

They all work on the store of the run itself.
-/

namespace Uplift.Collaborators

/-- Tests that report the same counts on every run. -/
def fixedTests {σ : Type} (report : TestReport) : Call σ TestReport := .query fun _ => .ok report

def standard {σ : Type} [FileStore σ] (p : ExecutionPolicy)
    (tests : Call σ TestReport := fixedTests {}) : Collaborators σ where
  backup := Backup.create p.backupDir
  dependencies := Manifest.update
  config := BuildConfig.update
  tests := tests

end Uplift.Collaborators
