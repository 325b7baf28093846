import Uplift.Glob
import Uplift.Json.Decode
import Uplift.Path
import Uplift.Text.Class

/-!
# Migration requests

A request says from which version to which one a project moves, how cautiously, and which
files take part. `Request.validate` accepts a request whose versions are given and differ
where they must, whose globs compile and whose document paths are relative.
-/

namespace Uplift

/-- What kind of move a request asks for. -/
inductive Move where
  | versionUpgrade
  | frameworkMigration
  | architectureRefactor
  | dependencyUpdate
  | breakingChange
  deriving DecidableEq, Repr, Inhabited

namespace Move

def all : List Move :=
  [versionUpgrade, frameworkMigration, architectureRefactor, dependencyUpdate, breakingChange]

def label : Move → String
  | versionUpgrade => "version-upgrade"
  | frameworkMigration => "framework-migration"
  | architectureRefactor => "architecture-refactor"
  | dependencyUpdate => "dependency-update"
  | breakingChange => "breaking-change"

def ofLabel? (s : String) : Option Move := all.find? (·.label = s)

/-- Whether the package manifest changes. -/
def touchesManifest : Move → Bool
  | versionUpgrade | frameworkMigration | dependencyUpdate => true
  | architectureRefactor | breakingChange => false

/-- Whether the build configuration changes. -/
def touchesBuildConfig : Move → Bool
  | versionUpgrade | frameworkMigration => true
  | architectureRefactor | dependencyUpdate | breakingChange => false

theorem ofLabel?_label (m : Move) : ofLabel? m.label = some m := by cases m <;> rfl

end Move

/-- How cautious a run is; only a conservative one undoes its changes by itself. -/
inductive Safety where
  | conservative
  | moderate
  | aggressive
  deriving DecidableEq, Repr, Inhabited

namespace Safety

def all : List Safety := [conservative, moderate, aggressive]

def label : Safety → String
  | conservative => "conservative"
  | moderate => "moderate"
  | aggressive => "aggressive"

def ofLabel? (s : String) : Option Safety := all.find? (·.label = s)

theorem ofLabel?_label (s : Safety) : ofLabel? s.label = some s := by cases s <;> rfl

end Safety

/-- What is wrong with a request or with settings. -/
inductive ConfigError where
  | invalidPath (path : Path) (reason : String)
  | invalidGlob (glob : String) (reason : Glob.Error)
  | invalidOption (option reason : String)
  | syntaxFault (fault : Json.Fault) (text : String)
  | mismatch
  deriving DecidableEq, Repr

namespace ConfigError

/-- What kept a text from being read. -/
def cause? : ConfigError → Option String
  | syntaxFault fault text => some (fault.message text)
  | mismatch => some "a value does not fit its field"
  | invalidPath .. | invalidGlob .. | invalidOption .. => none

def message (e : ConfigError) : String :=
  match e with
  | invalidPath path reason => s!"invalid path '{path}': {reason}"
  | invalidGlob glob reason => s!"invalid glob '{glob}': {reason.message}"
  | invalidOption option reason => s!"invalid configuration option '{option}': {reason}"
  | syntaxFault .. | mismatch => "failed to parse configuration: " ++ e.cause?.getD ""

/-- The message and the causes behind it. -/
def chain (e : ConfigError) : List String := e.message :: e.cause?.toList

def ofMisfit (text : String) : Json.Misfit → ConfigError
  | .fault f => syntaxFault f text
  | .mismatch => mismatch

end ConfigError

structure Request where
  source : String := ""
  target : String := ""
  move : Move := .versionUpgrade
  safety : Safety := .conservative
  autoApply : Bool := false
  dryRun : Bool := false
  backup : Bool := true
  rollback : Bool := true
  includeTests : Bool := false
  included : List String := []
  excluded : List String := ["node_modules/**", "dist/**"]
  manifest : Path := ⟨"package.json"⟩
  buildConfig : Path := ⟨"tsconfig.json"⟩
  overrides : Keyed String := []
  deriving DecidableEq, Repr, Inhabited

namespace Request

/-- Whether an aborted run undoes what it did. -/
def undoesOnAbort (r : Request) : Bool := r.rollback && r.safety = .conservative

def checkGlob (glob : String) : Except ConfigError Unit :=
  match Glob.compile glob with
  | .ok _ => .ok ()
  | .error e => .error (.invalidGlob glob e)

def checkPath (p : Path) : Except ConfigError Unit :=
  if p.text.isEmpty then .error (.invalidPath p "must not be empty")
  else if p.isAbsolute then .error (.invalidPath p "must be relative to the project root")
  else .ok ()

def checkVersion (option version : String) : Except ConfigError Unit :=
  if (Text.trim version.toList).isEmpty then .error (.invalidOption option "must not be empty")
  else .ok ()

def validate (r : Request) : Except ConfigError Unit := do
  checkVersion "source_version" r.source
  checkVersion "target_version" r.target
  if r.move = .versionUpgrade ∧ r.source = r.target then
    .error (.invalidOption "target_version" "a version upgrade must change the version")
  (r.included ++ r.excluded).forM checkGlob
  [r.manifest, r.buildConfig].forM checkPath

/-! ### JSON form -/

open Json

def text (name : String) (set : String → Request → Request) (get : Request → String) :
    Slot Request :=
  Slot.of name Decoder.string set (.string ∘ get) false

def flag (name : String) (set : Bool → Request → Request) (get : Request → Bool) :
    Slot Request :=
  Slot.of name Decoder.bool set (.bool ∘ get) false

def texts (name : String) (set : List String → Request → Request)
    (get : Request → List String) : Slot Request :=
  Slot.of name (Decoder.list Decoder.string) set (ofStrings ∘ get) false

def record : Record Request := [
  text "source_version" (fun v r => { r with source := v }) (·.source),
  text "target_version" (fun v r => { r with target := v }) (·.target),
  Slot.of "migration_type" (Decoder.label Move.ofLabel?) (fun v r => { r with move := v })
    (fun r => .string r.move.label) false,
  Slot.of "safety_level" (Decoder.label Safety.ofLabel?) (fun v r => { r with safety := v })
    (fun r => .string r.safety.label) false,
  flag "auto_apply" (fun v r => { r with autoApply := v }) (·.autoApply),
  flag "dry_run" (fun v r => { r with dryRun := v }) (·.dryRun),
  flag "backup_enabled" (fun v r => { r with backup := v }) (·.backup),
  flag "rollback_enabled" (fun v r => { r with rollback := v }) (·.rollback),
  flag "include_tests" (fun v r => { r with includeTests := v }) (·.includeTests),
  texts "include" (fun v r => { r with included := v }) (·.included),
  texts "exclude" (fun v r => { r with excluded := v }) (·.excluded),
  text "manifest_path" (fun v r => { r with manifest := ⟨v⟩ }) (·.manifest.text),
  text "build_config_path" (fun v r => { r with buildConfig := ⟨v⟩ }) (·.buildConfig.text),
  Slot.of "config_overrides" Decoder.stringMap (fun v r => { r with overrides := v })
    (fun r => .object (r.overrides.map fun (k, v) => (k, .string v))) false]

def toJson (r : Request) : Json := record.encode r

def ofJson? (text : String) : Except ConfigError Request :=
  match decodeText (record.decode {}) text with
  | .ok r => .ok r
  | .error e => .error (.ofMisfit text e)

end Request

end Uplift
