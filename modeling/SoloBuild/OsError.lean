/-!
# Operating system errors

The ways in which reading, writing, removing or starting a file fails, with the texts under which
they are reported.
-/

namespace SoloBuild

/-- A failed file or process operation. -/
inductive OsError where
  | notFound
  | invalidExecutable
  | permissionDenied
  | notADirectory
  | isADirectory
  | invalidArgument
  | noSpace
  | nameTooLong
  | directoryNotEmpty
  | tooManyLinks
  /-- The content of a text file is not UTF-8. -/
  | notUtf8
  /-- A path holds a NUL character. -/
  | nulInPath
  /-- A command holds a NUL character. -/
  | nulInCommand
  deriving DecidableEq, Repr

namespace OsError

/-- The system's own text and number for an error that it reports. -/
def system? : OsError → Option (String × Nat)
  | notFound => some ("No such file or directory", 2)
  | invalidExecutable => some ("Exec format error", 8)
  | permissionDenied => some ("Permission denied", 13)
  | notADirectory => some ("Not a directory", 20)
  | isADirectory => some ("Is a directory", 21)
  | invalidArgument => some ("Invalid argument", 22)
  | noSpace => some ("No space left on device", 28)
  | nameTooLong => some ("File name too long", 36)
  | directoryNotEmpty => some ("Directory not empty", 39)
  | tooManyLinks => some ("Too many levels of symbolic links", 40)
  | notUtf8 | nulInPath | nulInCommand => none

/-- The text an error is reported with. -/
def message (e : OsError) : String :=
  match e.system? with
  | some (text, number) => text ++ " (os error " ++ toString number ++ ")"
  | none =>
    match e with
    | nulInPath => "file name contained an unexpected NUL byte"
    | nulInCommand => "nul byte found in provided data"
    | _ => "stream did not contain valid UTF-8"

end OsError

end SoloBuild
