import Uplift.CommandLine.Flag

/-!
# Arguments

Arguments are read one after the other: flags for the whole program, a verb, and the flags
of the verb. `Arguments.read` gives what was asked for, or says why there is nothing to run.
-/

namespace Uplift.CommandLine

/-- Flags in the order given, each with its value; the text is empty for a flag without. -/
abbrev Given := List (Flag × String)

structure Arguments where
  verb : Verb
  before : Given := []
  after : Given := []
  env : Keyed String := []
  deriving DecidableEq, Repr, Inhabited

namespace Arguments

def has (a : Arguments) (f : Flag) : Bool := a.after.any (·.1 = f)

def values (a : Arguments) (f : Flag) : List String :=
  (a.after.filter (·.1 = f)).map (·.2)

/-- What follows the verb goes before what precedes it, and that before the environment. -/
def value? (a : Arguments) (f : Flag) : Option String :=
  a.after.lookup f <|> a.before.lookup f <|> f.envName?.bind (a.env.get? ·)

end Arguments

/-- Why there is nothing to run. -/
inductive Stop where
  | misuse
  | help
  /-- The version is asked for, of the program or of one verb. -/
  | version (verb : Option Verb)
  deriving DecidableEq, Repr, Inhabited

/-- What has been read so far. -/
structure Reading where
  verb : Option Verb := none
  before : Given := []
  after : Given := []
  /-- The flag whose value comes next. -/
  pending : Option Flag := none
  /-- Nothing more is read as a flag or a verb. -/
  closed : Bool := false
  deriving Repr, Inhabited

namespace Reading

def given (r : Reading) : Given := if r.verb.isSome then r.after else r.before

def add (r : Reading) (f : Flag) (value : String) : Reading :=
  if r.verb.isSome then { r with after := r.after ++ [(f, value)], pending := none }
  else { r with before := r.before ++ [(f, value)], pending := none }

def put (r : Reading) (f : Flag) (value : String) : Except Stop Reading :=
  if f = .help then .error .help
  else if f = .version then .error (.version r.verb)
  else if !f.admits value || (!f.repeats && r.given.any (·.1 = f)) then .error .misuse
  else .ok (r.add f value)

/-- The flag of a long name, with a value after an equals sign if there is one. -/
def readLong (r : Reading) (text : List Char) : Except Stop Reading :=
  match Flag.ofLong? r.verb (String.ofList (text.takeWhile (· ≠ '='))) with
  | none => .error .misuse
  | some f =>
    match text.dropWhile (· ≠ '=') with
    | [] => if f.takesValue then .ok { r with pending := some f } else r.put f ""
    | _ :: value => if f.takesValue then r.put f (String.ofList value) else .error .misuse

/-- Short names in a row; what follows one that takes a value is its value. -/
def readShort (r : Reading) : List Char → Except Stop Reading
  | [] => .ok r
  | c :: rest =>
    match Flag.ofShort? r.verb c with
    | none => .error .misuse
    | some f =>
      if f.takesValue then
        match rest with
        | [] => .ok { r with pending := some f }
        | '=' :: value => r.put f (String.ofList value)
        | value => r.put f (String.ofList value)
      else
        match r.put f "" with
        | .ok r => readShort r rest
        | .error stop => .error stop

def readFlag (r : Reading) (dashed : List Char) : Except Stop Reading :=
  match dashed with
  | ['-'] => .ok { r with closed := true }
  | '-' :: name => r.readLong name
  | names => r.readShort names

/-- What help is asked for: on the program or on one verb. -/
def readHelp : List String → Stop
  | [] => .help
  | [name] => if name = "help" ∨ (Verb.ofLabel? name).isSome then .help else .misuse
  | _ :: _ :: _ => .misuse

/-- Reads an argument that is no flag and no value. -/
def readVerb (r : Reading) (arg : String) (rest : List String) : Except Stop Reading :=
  match r.verb, Verb.ofLabel? arg with
  | none, some verb => .ok { r with verb := some verb }
  | none, none => .error (if arg = "help" then readHelp rest else .misuse)
  | some _, _ => .error .misuse

/-- Reads one argument; `rest` follows it. -/
def step (r : Reading) (arg : String) (rest : List String) : Except Stop Reading :=
  if r.closed then .error .misuse
  else
    match arg.toList, r.pending with
    | '-' :: c :: dashed, none => r.readFlag (c :: dashed)
    | '-' :: _ :: _, some _ => .error .misuse
    | _, some f => r.put f arg
    | _, none => r.readVerb arg rest

def readAll (r : Reading) : List String → Except Stop Reading
  | [] => .ok r
  | arg :: rest =>
    match r.step arg rest with
    | .ok r => readAll r rest
    | .error stop => .error stop

end Reading

/-- Reads all arguments; a verb must be given, and each flag must have its value. -/
def Arguments.read (env : Keyed String) (args : List String) : Except Stop Arguments := do
  let r ← ({} : Reading).readAll args
  match r.pending, r.verb with
  | none, some verb => return { verb := verb, before := r.before, after := r.after, env := env }
  | _, _ => .error .misuse

end Uplift.CommandLine
