import Uplift.Collaborator.Command
import Uplift.Files.Disk
import Uplift.Text.Search

/-!
# A small machine

`Machine.small` knows few programs: those that say only yes or no, comparisons and questions about
files, and the shell with a script of such programs. A program that is not known cannot be
started, and none of them changes a file. Theorems about runs hold on every machine.
-/

namespace Uplift

namespace Command

/-- Directories that every system has. -/
def systemDirs : List Path :=
  ["/", "/bin", "/dev", "/etc", "/home", "/proc", "/root", "/sys", "/tmp", "/usr", "/var"].map
    Path.mk

/-- What there is at the paths that a command may ask about. -/
abbrev Surroundings := Path → Option NodeKind

/-- The surroundings of a command that runs nowhere in particular. -/
def anywhere : Surroundings := fun p => if systemDirs.any p.same then some .dir else none

/-- Whether a comparison holds; none if it is none. -/
def compare? (at? : Surroundings) : List String → Option Bool
  | [] => some false
  | [a] => some (!a.isEmpty)
  | ["-n", a] => some (!a.isEmpty)
  | ["-z", a] => some a.isEmpty
  | ["!", a] => some a.isEmpty
  | ["-e", p] => some (at? ⟨p⟩).isSome
  | ["-f", p] => some (at? ⟨p⟩ = some .file)
  | ["-d", p] => some (at? ⟨p⟩ = some .dir)
  | [a, "=", b] => some (a = b)
  | [a, "!=", b] => some (a ≠ b)
  | [a, "-eq", b] => do return (← a.toInt?) = (← b.toInt?)
  | [a, "-ne", b] => do return (← a.toInt?) ≠ (← b.toInt?)
  | _ => none

def exitOf : Option Bool → Nat
  | some true => 0
  | some false => 1
  | none => 2

/-- The exit code of a program other than the shell; none if it is not known. -/
def programExit? (at? : Surroundings) (program : String) (args : List String) : Option Nat :=
  match program with
  | "true" | "echo" | "printf" | "pwd" | "sleep" => some 0
  | "false" => some 1
  | "test" => some (exitOf (compare? at? args))
  | "[" =>
    if args.getLast? = some "]" then some (exitOf (compare? at? args.dropLast)) else some 2
  | _ => none

/-! ### Scripts -/

/-- When a command of a script runs. -/
inductive Link where
  | always
  | onSuccess
  | onFailure
  deriving DecidableEq, Repr

/-- How a character of a script is read. -/
inductive Mode where
  | bare
  | single
  | double
  deriving DecidableEq, Repr

/-- The command being read: its words so far and the word under way. -/
structure Reader where
  mode : Mode := .bare
  link : Link := .always
  words : List String := []
  word : Option (List Char) := none
  done : List (Link × List String) := []
  deriving Inhabited

namespace Reader

def push (r : Reader) (cs : List Char) : Reader := { r with word := some (r.word.getD [] ++ cs) }

def endWord (r : Reader) : Reader :=
  match r.word with
  | some w => { r with words := r.words ++ [String.ofList w], word := none }
  | none => r

def endCommand (r : Reader) (next : Link) : Reader :=
  let r := r.endWord
  let done := if r.words.isEmpty then r.done else r.done ++ [(r.link, r.words)]
  { r with link := next, words := [], done := done }

end Reader

/-- Reads a script; `skip` characters have been read already. A quote must be closed. -/
def readScript (dir : List Char) : Nat → Reader → List Char → Option (List (Link × List String))
  | _, r, [] => if r.mode = .bare then some (r.endCommand .always).done else none
  | skip + 1, r, _ :: rest => readScript dir skip r rest
  | 0, r, c :: rest =>
    if r.mode = .single then
      if c = '\'' then readScript dir 0 { r with mode := .bare } rest
      else readScript dir 0 (r.push [c]) rest
    else if Text.startsWith "$(pwd)".toList (c :: rest) then readScript dir 5 (r.push dir) rest
    else if Text.startsWith "$PWD".toList (c :: rest) then readScript dir 3 (r.push dir) rest
    else if c = '\\' then
      match rest with
      | d :: _ => readScript dir 1 (r.push [d]) rest
      | [] => readScript dir 0 r rest
    else if r.mode = .double then
      if c = '"' then readScript dir 0 { r with mode := .bare } rest
      else readScript dir 0 (r.push [c]) rest
    else if c = '\'' then readScript dir 0 { r.push [] with mode := .single } rest
    else if c = '"' then readScript dir 0 { r.push [] with mode := .double } rest
    else if c = '&' ∧ rest.head? = some '&' then readScript dir 1 (r.endCommand .onSuccess) rest
    else if c = '|' ∧ rest.head? = some '|' then readScript dir 1 (r.endCommand .onFailure) rest
    else if c = ';' ∨ c = '\n' then readScript dir 0 (r.endCommand .always) rest
    else if c = ' ' ∨ c = '\t' then readScript dir 0 r.endWord rest
    else readScript dir 0 (r.push [c]) rest

/-- The exit code of a script whose commands so far ended with `last`. -/
def runScript (at? : Surroundings) (last : Nat) : List (Link × List String) → Nat
  | [] => last
  | (link, words) :: rest =>
    let runs := link = .always ∨ (link = .onSuccess ∧ last = 0) ∨ (link = .onFailure ∧ last ≠ 0)
    if ¬runs then runScript at? last rest
    else
      match words with
      | ["exit"] => last
      | "exit" :: code :: _ => (code.toNat?.getD 2) % 256
      | ":" :: _ => runScript at? 0 rest
      | program :: args => runScript at? ((programExit? at? program args).getD 127) rest
      | [] => runScript at? last rest

/-- The name of a program given by its full path in a directory of programs. -/
def programName (c : Command) : String :=
  (["/bin/", "/usr/bin/"].findSome? fun place =>
    (Text.dropPrefix? place.toList c.program.toList).map String.ofList).getD c.program

/-- The exit code of a command in its directory; none if it is not known. -/
def exit? (at? : Surroundings) (c : Command) : Option Nat :=
  if c.programName = "sh" ∨ c.programName = "bash" then
    match c.args with
    | "-c" :: script :: _ =>
      match readScript ((c.dir.getD ⟨""⟩).text.toList) 0 {} script.toList with
      | some commands => some (runScript at? 0 commands)
      | none => some 2
    | _ => some 0
  else programExit? at? c.programName c.args

/-- Why a program that is not known cannot be started. -/
def refusal (at? : Surroundings) (c : Command) : FileCause :=
  if c.program.toList.contains '/' ∧ (at? ⟨c.program⟩).isSome then .notPermitted else .notFound

/-- Seconds that the command sleeps. -/
def pause (c : Command) : Nat :=
  if c.program = "sleep" then ((c.args.head?.bind String.toNat?).getD 0) else 0

end Command

/-- The machine with the programs above, given what there is around a command and whether its
directory is there. -/
def Machine.small {σ : Type} (around : σ → Command.Surroundings) (hasDir : Bool) : Machine σ :=
  fun c store =>
    let success :=
      if ¬hasDir then .error .notFound
      else
        match c.exit? (around store) with
        | some code => .ok (code = 0)
        | none => .error (c.refusal (around store))
    { success := success, after := store, elapsed := c.pause * 1000 }

/-- Runs the command as the only test, on the small machine. -/
def Command.run {σ : Type} (around : σ → Command.Surroundings) (hasDir : Bool) (c : Command) :
    Call σ TestReport :=
  c.test (Machine.small around hasDir)

end Uplift
