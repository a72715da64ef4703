import SoloBuild.FileTree.Files
import SoloBuild.Shell.ByteText
import SoloBuild.Shell.Options

/-!
# Effects of utilities

What running a utility does, how it takes its options and file operands, and what it says about a
file that it cannot read.
-/

namespace SoloBuild.Shell

/-- How long something lasts that does not come to an end, in milliseconds. -/
def endless : Nat := 1000000000000

/-- What running a utility does. -/
structure Effect where
  files : FileTree
  /-- The name that the utility was started under, which its messages begin with. -/
  tool : String
  /-- The variables that the utility gets to know. -/
  environment : List (String × String) := []
  /-- What is left of the input. -/
  input : List UInt8 := []
  /-- The input is a file, so what is not used of it can be left. -/
  readsFile : Bool := false
  /-- What is written, but held back until the utility ends. -/
  held : List UInt8 := []
  /-- What has been written, the latest first, and whether it is an error. -/
  log : List (Bool × List UInt8) := []
  status : Nat := 0
  /-- How long it takes after all is written, in milliseconds. -/
  time : Nat := 0
  /-- How many rounds of an endless text are asked for. -/
  demand : Nat := 0

namespace Effect

/-- Writes to the standard output. -/
def write (e : Effect) (bytes : List UInt8) : Effect :=
  { e with held := e.held ++ bytes }

/-- Writes out what is held back. -/
def flush (e : Effect) : Effect :=
  if e.held.isEmpty then e else { e with held := [], log := (false, e.held) :: e.log }

/-- Writes a line to the error output. -/
def tell (e : Effect) (line : String) : Effect :=
  { e with log := (true, bytesOf (line ++ "\n")) :: e.log }

/-- Reports an error, without writing out first what is held back. -/
def warn (e : Effect) (message : String) (status : Nat) : Effect :=
  { e.tell (e.tool ++ ": " ++ message) with status := max e.status status }

/-- Reports an error after everything that was written before. -/
def complain (e : Effect) (message : String) (status : Nat) : Effect :=
  e.flush.warn message status

/-- Reports a use of the utility that it does not know. -/
def misuse (e : Effect) (message : String) (status : Nat) : Effect :=
  (e.complain message status).tell ("Try '" ++ e.tool ++ " --help' for more information.")

/-- Does what the options and operands of a utility say, if it knows them. -/
def withArguments (e : Effect) (table : OptionTable) (status : Nat) (args : List String)
    (act : Arguments → Effect) : Effect :=
  match table.read args with
  | .ok a => act a
  | .error message => e.misuse message status

/-- Everything that is written, in order. -/
def written (e : Effect) : List (Bool × List UInt8) := e.flush.log.reverse

end Effect

/-- The text of a system error without its number. -/
def errorText (e : OsError) : String :=
  match e.system? with
  | some (text, _) => text
  | none => e.message

/-- The content that a path leads to, if it is a file or a device. -/
def contentAt (t : FileTree) (demand : Nat) (path : String) : Except OsError (List UInt8) :=
  if path = "/dev/null" then .ok []
  else if path = "/dev/zero" then .ok (List.replicate demand 0)
  else (t.readBytes (pathOf path)).map ByteArray.toList

/-- The content of a file operand; `-` is the input. `unreadable` tells what is done about a file
that cannot be read. -/
def operand (e : Effect) (unreadable : Effect → String → OsError → Effect) (file : String) :
    Effect × Option (List UInt8) :=
  if file = "-" ∨ file = "/dev/stdin" then ({ e with input := [] }, some e.input)
  else
    match contentAt e.files e.demand file with
    | .ok content => (e, some content)
    | .error cause => (unreadable e file cause, none)

/-- What most utilities say about a file that they cannot read. -/
def plainly (status : Nat) (e : Effect) (file : String) (cause : OsError) : Effect :=
  e.complain (file ++ ": " ++ errorText cause) status

/-- File operands; without any, the input is read. -/
def orInput (files : List String) : List String := if files.isEmpty then ["-"] else files

/-- The contents of file operands that can be read, with their names; without operands, the
input. -/
def namedOperands (e : Effect) (unreadable : Effect → String → OsError → Effect)
    (files : List String) : Effect × List (String × List UInt8) :=
  (orInput files).foldl (fun (e, contents) file =>
    match operand e unreadable file with
    | (e, some content) => (e, contents ++ [(file, content)])
    | (e, none) => (e, contents)) (e, [])

/-- The contents of file operands, one after the other; without operands, the input. -/
def operands (e : Effect) (unreadable : Effect → String → OsError → Effect)
    (files : List String) : Effect × List (List UInt8) :=
  let (e, contents) := namedOperands e unreadable files
  (e, contents.map (·.2))

end SoloBuild.Shell
