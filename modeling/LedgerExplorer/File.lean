/-!
# Files

What reading or writing a file can come to, and a place in the file system for one file.
-/

namespace LedgerExplorer

/-- Why a file cannot be read or written. -/
inductive FileError
  /-- The file, or a directory on the way to it, is not there. -/
  | missing
  | isDirectory
  /-- The path leads through a file as if it was a directory. -/
  | notDirectory
  /-- The path, or a name on it, has too many bytes. -/
  | nameTooLong
  /-- The path has a zero character, which ends a path. -/
  | zeroCharacter
  | other (text : String)
  deriving DecidableEq, Repr

def FileError.message : FileError → String
  | .missing => "No such file or directory (os error 2)"
  | .isDirectory => "Is a directory (os error 21)"
  | .notDirectory => "Not a directory (os error 20)"
  | .nameTooLong => "File name too long (os error 36)"
  | .zeroCharacter => "file name contained an unexpected NUL byte"
  | .other text => text

/-- A place for one file. -/
structure FileSlot where
  path : String
  /-- The text of the file, or the reason why there is none. -/
  content : Except FileError String
  /-- The reason why the file cannot be written, if there is one. -/
  blocked : Option FileError := none

namespace FileSlot

/-- Writes the file, in place of what it held. A blocked one is left as it is. -/
def write (f : FileSlot) (text : String) : Except FileError Unit × FileSlot :=
  match f.blocked with
  | some e => (.error e, f)
  | none => (.ok (), { f with content := .ok text })

end FileSlot

end LedgerExplorer
