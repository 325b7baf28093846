import Uplift.Glob
import Uplift.Path

/-!
# File errors

What can go wrong when files are listed, read and written. An error about one file leaves
the other files usable; any other error leaves no file set to work on.
-/

namespace Uplift

/-- Why a file could not be read or written. -/
inductive FileCause where
  | readOnly
  | isDirectory
  | notDirectory
  | notFound
  | occupied
  | nameTooLong
  | nulByte
  | notUtf8
  | notPermitted
  | other (text : String)
  deriving DecidableEq, Repr

def FileCause.message : FileCause → String
  | readOnly => "file is read-only"
  | isDirectory => "Is a directory (os error 21)"
  | notDirectory => "Not a directory (os error 20)"
  | notFound => "No such file or directory (os error 2)"
  | occupied => "File exists (os error 17)"
  | nameTooLong => "File name too long (os error 36)"
  | nulByte => "file name contained an unexpected NUL byte"
  | notUtf8 => "stream did not contain valid UTF-8"
  | notPermitted => "Permission denied (os error 13)"
  | other text => text

inductive FileError where
  | unreadable (path : Path) (cause : FileCause)
  | unwritable (path : Path) (cause : FileCause)
  | missing (path : Path)
  | badGlob (glob : String) (reason : Glob.Error)
  | setup (reason : String)
  | notUnicode (path : String)
  deriving DecidableEq, Repr

namespace FileError

def message : FileError → String
  | unreadable path cause => s!"cannot read {path}: {cause.message}"
  | unwritable path cause => s!"failed to write {path}: {cause.message}"
  | missing path => s!"no such file: {path}"
  | badGlob glob reason => s!"bad glob '{glob}': {reason.message}"
  | setup reason => s!"scanner setup: {reason}"
  | notUnicode path => s!"non UTF-8 path: {path}"

/-- The message and the causes behind it. -/
def chain (e : FileError) : List String :=
  match e with
  | unreadable _ cause | unwritable _ cause => [e.message, cause.message]
  | missing _ | badGlob .. | setup _ | notUnicode _ => [e.message]

/-- The file that the error is about. -/
def path? : FileError → Option Path
  | unreadable path _ | unwritable path _ | missing path => some path
  | badGlob .. | setup .. | notUnicode .. => none

/-- Whether the error is about one file only. -/
def isRecoverable (e : FileError) : Bool := e.path?.isSome

end FileError

end Uplift
