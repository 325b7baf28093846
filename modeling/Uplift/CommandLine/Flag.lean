import Uplift.Pattern.Basic
import Uplift.Request

/-!
# Flags of the command line

Each verb has its own flags; a few stand before or after any verb. A flag takes a value or
none, and only some flags may be repeated.
-/

namespace Uplift.CommandLine

inductive Verb where
  | plan
  | migrate
  | patterns
  deriving DecidableEq, Repr, Inhabited

namespace Verb

def all : List Verb := [plan, migrate, patterns]

def label : Verb → String
  | plan => "plan"
  | migrate => "migrate"
  | patterns => "patterns"

def ofLabel? (s : String) : Option Verb := all.find? (·.label = s)

theorem ofLabel?_label (v : Verb) : ofLabel? v.label = some v := by cases v <;> rfl

end Verb

inductive Flag where
  | root
  | settings
  | verbose
  | plain
  | help
  | version
  | config
  | source
  | target
  | move
  | safety
  | tests
  | noBackup
  | noRollback
  | included
  | excluded
  | override
  | dryRun
  | testCommand
  | report
  | category
  | json
  deriving DecidableEq, Repr, Inhabited

namespace Flag

def all : List Flag :=
  [root, settings, verbose, plain, help, version, config, source, target, move, safety, tests,
    noBackup, noRollback, included, excluded, override, dryRun, testCommand, report, category,
    json]

def long : Flag → String
  | root => "root"
  | settings => "settings"
  | verbose => "verbose"
  | plain => "no-color"
  | help => "help"
  | version => "version"
  | config => "config"
  | source => "from"
  | target => "to"
  | move => "type"
  | safety => "safety"
  | tests => "include-tests"
  | noBackup => "no-backup"
  | noRollback => "no-rollback"
  | included => "include"
  | excluded => "exclude"
  | override => "set"
  | dryRun => "dry-run"
  | testCommand => "test-command"
  | report => "report"
  | category => "category"
  | json => "json"

def short? : Flag → Option Char
  | root => some 'r'
  | verbose => some 'v'
  | help => some 'h'
  | version => some 'V'
  | move => some 't'
  | category => some 'c'
  | _ => none

def takesValue : Flag → Bool
  | verbose | plain | help | version | tests | noBackup | noRollback | dryRun | json => false
  | root | settings | config | source | target | move | safety | included | excluded | override
  | testCommand | report | category => true

def repeats : Flag → Bool
  | included | excluded | override => true
  | _ => false

/-- The environment variable that stands in for the flag. -/
def envName? : Flag → Option String
  | root => some "CODEMIG_ROOT"
  | settings => some "CODEMIG_SETTINGS"
  | _ => none

/-- Whether the flag may stand after a verb, or before it for none. -/
def belongsTo (verb : Option Verb) : Flag → Bool
  | root | settings | verbose | plain | help | version => true
  | config | source | target | move | safety | tests | noBackup | noRollback | included
  | excluded | override => verb = some .plan || verb = some .migrate
  | dryRun | testCommand | report => verb = some .migrate
  | category => verb = some .patterns
  | json => verb.isSome

def ofLong? (verb : Option Verb) (name : String) : Option Flag :=
  all.find? fun f => f.belongsTo verb && f.long = name

def ofShort? (verb : Option Verb) (name : Char) : Option Flag :=
  all.find? fun f => f.belongsTo verb && f.short? = some name

end Flag

/-- The key and the value of an override, which an equals sign parts. -/
def override? (text : String) : Option (String × String) :=
  match text.toList.dropWhile (· ≠ '=') with
  | [] => none
  | _ :: value =>
    let key := Text.trim (text.toList.takeWhile (· ≠ '='))
    if key.isEmpty then none else some (String.ofList key, String.ofList value)

/-- Whether a flag admits a value. -/
def Flag.admits (f : Flag) (value : String) : Bool :=
  match f with
  | move => (Move.ofLabel? value).isSome
  | safety => (Safety.ofLabel? value).isSome
  | category => (Category.ofLabel? value).isSome
  | override => (override? value).isSome
  | _ => true

end Uplift.CommandLine
