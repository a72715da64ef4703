import SoloBuild.OsError
import SoloBuild.Path

/-!
# Build processes

Builds run on channels, one process at a time on each. This module holds the channels, the states a
process is seen in, the commands that processes are started with, and the errors of starting one.
-/

namespace SoloBuild

/-- A surface on which builds run. -/
inductive Channel where
  /-- Compiles of one file. -/
  | singleFile
  /-- Builds of a selection of projects. -/
  | selection
  /-- Builds of the project to be debugged. -/
  | startup
  deriving DecidableEq, Repr

namespace Channel

/-- The name a channel is shown with. -/
def name : Channel → String
  | singleFile => "single-file"
  | selection => "selection"
  | startup => "startup"

/-- All channels, in the order in which they are killed. -/
def all : List Channel := [singleFile, selection, startup]

theorem mem_all (c : Channel) : c ∈ all := by cases c <;> decide

end Channel

/-- What is known of a process. -/
inductive ProcessState where
  | notStarted
  | running
  /-- It ended by itself; there is no code when a signal ended it. -/
  | exited (code : Option Int32)
  /-- It was killed on request. -/
  | killed
  deriving DecidableEq, Repr

namespace ProcessState

def isRunning : ProcessState → Bool
  | running => true
  | _ => false

def isTerminal : ProcessState → Bool
  | exited _ | killed => true
  | notStarted | running => false

/-- Only an exit with code zero is a success. -/
def isSuccess : ProcessState → Bool
  | exited (some code) => code == 0
  | _ => false

/-- The text a state is shown with. -/
def display : ProcessState → String
  | notStarted => "not started"
  | running => "running"
  | exited (some code) => "exited with code " ++ toString code.toInt
  | exited none => "exited by signal"
  | killed => "killed"

theorem isSuccess_iff {s : ProcessState} : s.isSuccess = true ↔ s = .exited (some 0) := by
  cases s with
  | exited code => cases code <;> simp [isSuccess]
  | _ => simp [isSuccess]

end ProcessState

/-- What is run for a build. -/
structure BuildCommand where
  program : Path
  args : List String
  workingDir : Path
  deriving DecidableEq, Repr

/-- The text a command is shown with: its words, separated by blanks. -/
def BuildCommand.display (command : BuildCommand) : String :=
  command.args.foldl (fun shown arg => shown ++ " " ++ arg) command.program.text

/-- Why a process was not started. -/
inductive ProcessError where
  /-- The channel has a live process. -/
  | alreadyRunning (channel : Channel)
  /-- The program cannot be run. -/
  | launch (program : Path) (cause : OsError)
  deriving DecidableEq, Repr

/-- The text an error is reported with. -/
def ProcessError.message : ProcessError → String
  | alreadyRunning channel => "a " ++ channel.name ++ " build is already running"
  | launch program cause => "failed to start " ++ program.text ++ ": " ++ cause.message

end SoloBuild
