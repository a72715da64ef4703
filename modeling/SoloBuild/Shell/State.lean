import SoloBuild.Shell.ByteText
import SoloBuild.Shell.Channel
import SoloBuild.Shell.Script
import SoloBuild.Shell.Switches
import SoloBuild.Shell.Variables
import SoloBuild.Text.Digits

/-!
# The state of a shell

What a running script has at hand: the files with the working directory, channels, variables and
parameters, the clock, and everything written so far with the time of writing. What is around a
command is its setting.
-/

namespace SoloBuild.Shell

/-- What is around a command. -/
structure Setting where
  /-- The number of the process that the script runs in. -/
  process : Nat := 4000
  /-- The status of the command decides something, so failing is no error. -/
  tested : Bool := false
  /-- How many loops are around the command. -/
  loops : Nat := 0
  /-- How many rounds of an endless text are asked for by what reads the output. -/
  demand : Nat := 0
  /-- The command of the shell itself that runs, which messages name. -/
  command : Option String := none
  /-- The command belongs to a part of the script that has a process of its own. -/
  isPart : Bool := false
  /-- Nothing comes after the command in its process. -/
  isLast : Bool := false
  /-- The line up to which the script is read. -/
  readLine : Nat := 1
  /-- The documents that redirections name. -/
  documents : List (Nat × Word) := []

/-- How a command hands on control, if not to the next command. -/
inductive Flow where
  | exit
  /-- An error of the shell, which ends the script unless something guards against it. -/
  | failed
  | leaveLoop (levels : Nat)
  | nextRound (levels : Nat)
  | return
  /-- A signal ended the process. -/
  | killed (signal : Nat)
  /-- The command does not come to an end. -/
  | stuck
  deriving DecidableEq, Repr

/-- A command in the background. -/
structure Job where
  /-- The number of its process; zero if it was started by another script. -/
  id : Nat
  /-- The outlets that it holds open. -/
  outlets : List Outlet
  /-- When it ends, in microseconds. -/
  ended : Nat
  status : Nat
  /-- The script has taken notice of the end. -/
  reaped : Bool := false
  /-- What it writes, the latest first. -/
  written : List (Outlet × OutputPiece)

/-- A job that a script does not know of. -/
def Job.disowned (job : Job) : Job := { job with id := 0 }

/-- How far the options among the parameters are read: the next parameter, and how much of the one
before it is read. -/
structure OptionPlace where
  parameter : Nat := 1
  offset : Option Nat := none
  deriving DecidableEq, Repr

/-- The state of a shell. -/
structure State where
  files : FileTree
  channels : Channels := .standard
  /-- The name the script was started under. -/
  name : String := "sh"
  /-- The line of the command that runs. -/
  line : Nat := 1
  parameters : List String := []
  optionPlace : OptionPlace := {}
  vars : Variables := {}
  functions : List (String × Command) := []
  aliases : List (String × String) := []
  switches : Switches := []
  status : Nat := 0
  /-- The status of the last command whose output was put into a word. -/
  substituted : Nat := 0
  /-- The working directory under the name by which it was reached. -/
  directory : String := ""
  /-- The permissions that new files do not get. -/
  umask : Nat := 18
  /-- Microseconds since the start of the process. -/
  clock : Nat := 0
  /-- What was written, the latest first, with the times in microseconds. -/
  written : List (Outlet × OutputPiece) := []
  /-- The commands in the background, the latest first. -/
  jobs : List Job := []
  /-- The process of the latest command in the background. -/
  latestJob : Option Nat := none
  /-- What to run on signals, and under the number 0 at the end of the script. -/
  traps : List (Nat × String) := []
  /-- The signals that have reached the process and were not acted upon yet. -/
  signals : List Nat := []

/-- Running a part of a script. -/
abbrev Run := ExceptT Flow (StateM State)

namespace State

/-- The value of a variable; a variable that has none counts as empty. -/
def value (st : State) (name : String) : String := (st.vars.value? name).getD ""

/-- An option of the shell is on. -/
def isOn (st : State) (name : String) : Bool := st.switches.isOn name

/-- The state with a variable set. -/
def assign (st : State) (name value : String) : State :=
  let st := { st with vars := st.vars.assign name value (st.isOn "allexport") }
  if name = "OPTIND" then
    { st with optionPlace := { parameter := Text.decimal (value.toList.takeWhile Char.isDigit) } }
  else st

/-- The characters that separate fields. -/
def separators (st : State) : List Char := ((st.vars.value? "IFS").getD " \t\n").toList

/-- Content of a file with bytes written into it from an offset on. -/
def overwritten (content : ByteArray) (offset : Nat) (bytes : List UInt8) : ByteArray :=
  let gap := List.replicate (offset - content.size) (0 : UInt8)
  content.extract 0 offset ++ ⟨(gap ++ bytes).toArray⟩ ++
    content.extract (offset + bytes.length) content.size

/-- Writes bytes to a descriptor, if it can be written to. -/
def write? (st : State) (descriptor : Nat) (bytes : List UInt8) : Option State :=
  match st.channels.find? descriptor with
  | none | some (_, .bytes _) | some (_, .file _ _ .read) => none
  | some (_, .null) | some (_, .zeros) => some st
  | some (_, .outlet o) =>
    if bytes.isEmpty then some st
    else some { st with written := (o, ⟨st.clock, bytes⟩) :: st.written }
  | some (number, .file place offset access) =>
    match st.files.node? place with
    | some (.file content executable) =>
      let offset := if access = .append then content.size else offset
      let node := Node.file (overwritten content offset bytes) executable
      let channels := st.channels.put number (.file place (offset + bytes.length) access)
      some { st with files := st.files.put place node, channels }
    | _ => some st

/-- Writes bytes to the output for errors. -/
def tell (st : State) (text : String) : State := (st.write? 2 (bytesOf text)).getD st

/-- What can be read from a descriptor, if it can be read. An endless text has so many rounds. -/
def readable? (st : State) (descriptor rounds : Nat) : Option (List UInt8) :=
  match st.channels.find? descriptor with
  | some (_, .bytes rest) => some rest
  | some (_, .null) => some []
  | some (_, .zeros) => some (List.replicate rounds 0)
  | some (_, .file place offset access) =>
    if access = .read ∨ access = .both then
      match st.files.node? place with
      | some (.file content _) => some (content.toList.drop offset)
      | _ => some []
    else none
  | some (_, .outlet _) | none => none

/-- Reads from a descriptor until so many bytes are left. -/
def readDown (st : State) (descriptor left : Nat) : State :=
  match st.channels.find? descriptor with
  | some (number, .bytes rest) =>
    let rest := rest.drop (rest.length - left)
    { st with channels := st.channels.put number (.bytes rest) }
  | some (number, .file place offset access) =>
    match st.files.node? place with
    | some (.file content _) =>
      let offset := max offset (content.size - left)
      { st with channels := st.channels.put number (.file place offset access) }
    | _ => st
  | _ => st

/-- The place in the script that messages begin with. -/
def place (st : State) (s : Setting) : String :=
  st.name ++ ": " ++ toString st.line ++ ": " ++
    match s.command with
    | some command => command ++ ": "
    | none => ""

/-- Writes a message about the line of the script. -/
def warn (st : State) (s : Setting) (message : String) : State :=
  st.tell (st.place s ++ message ++ "\n")

/-- What was written to an outlet, in the order of time, with the times in milliseconds. -/
def piecesOf (st : State) (outlet : Outlet) : List OutputPiece :=
  let pieces := (st.written.filter fun w => w.1 == outlet).map (·.2)
  (pieces.reverse.mergeSort fun a b => a.time ≤ b.time).map fun piece =>
    { piece with time := piece.time / 1000 }

/-- The bytes written to an outlet. -/
def bytesWritten (st : State) (outlet : Outlet) : List UInt8 :=
  (st.piecesOf outlet).flatMap (·.bytes)

/-- The state without what was written to an outlet. -/
def forget (st : State) (outlet : Outlet) : State :=
  { st with written := st.written.filter fun w => w.1 != outlet }

/-- When the last of the jobs that hold an outlet open ends, but not before some time. -/
def closedAt (st : State) (outlet : Outlet) (time : Nat) : Nat :=
  ((st.jobs.filter fun job => job.outlets.contains outlet).map (·.ended)).foldl max time

/-- The state after a part of the script that had a state of its own. Files, channels, the clock,
what was written and the status are shared; all else is not. -/
def afterPart (st inner : State) : State :=
  { st with
    files := { inner.files with workingDir := st.files.workingDir }
    channels := { inner.channels with descriptors := st.channels.descriptors }.tidied
      st.channels.next
    status := inner.status % 256
    clock := inner.clock
    written := inner.written
    signals := st.signals ++ inner.signals
    jobs := (inner.jobs.take (inner.jobs.length - st.jobs.length)).map Job.disowned ++ st.jobs }

/-- The state after a signal ended a job: what the job would have written later is not written. -/
def endJob (signal : Nat) (st : State) (job : Job) : State :=
  let isLate (w : Outlet × OutputPiece) : Bool := st.clock < w.2.time && job.written.contains w
  { st with
    written := st.written.filter fun w => !isLate w
    jobs := st.jobs.map fun other =>
      if other.id = job.id then { job with ended := st.clock, status := 128 + signal } else other }

end State

namespace Run

/-- Ends a command with a status. -/
def finish (status : Nat) : Run Unit := modify fun st => { st with status }

/-- Writes a message about the line of the script, and ends the command with a status. -/
def complain (s : Setting) (message : String) (status : Nat) : Run Unit :=
  modify fun st => { st.warn s message with status }

/-- An error of the shell. -/
def fail {α : Type} (s : Setting) (message : String) (status : Nat := 2) : Run α := do
  complain s message status
  throw .failed

/-- Writes the output of a command of the shell itself, which ends with a status. -/
def emit (s : Setting) (bytes : List UInt8) (status : Nat := 0) : Run Unit := do
  match (← get).write? 1 bytes with
  | some st => set { st with status }
  | none =>
    if bytes.isEmpty then finish status
    else complain s ((s.command.getD "") ++ ": I/O error") (max status 1)

/-- Writes what a command of the shell itself has to say. -/
def print (s : Setting) (text : String) : Run Unit := emit s (bytesOf text)

/-- Sets a variable, unless it may not be changed. -/
def assign (s : Setting) (name value : String) : Run Unit := do
  if (← get).vars.isReadOnly name then fail s (name ++ ": is read only")
  else modify fun st => st.assign name value

/-- What a part of a script comes to, whatever control it hands on. -/
def outcome (part : Run Unit) : Run (Option Flow) := fun st =>
  match part st with
  | (.ok (), st) => (.ok none, st)
  | (.error flow, st) => (.ok (some flow), st)

/-- Hands on control as it was handed on before. -/
def resume : Option Flow → Run Unit
  | none => return ()
  | some flow => throw flow

/-- Runs something in the end, whatever control a part of the script hands on. -/
def andFinally (part : Run Unit) (after : State → State) : Run Unit := do
  let flow ← outcome part
  modify after
  resume flow

end Run

end SoloBuild.Shell
