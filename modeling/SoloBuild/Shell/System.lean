import SoloBuild.Process.State
import SoloBuild.Shell.Evaluation

/-!
# Starting programs

Starting a command changes to its working directory, finds its program there, and runs it with empty
input. What it does is told as a run: what it writes and when, and how it ends.

The engine and the commands know nothing of the interpreter: how a command is started is a parameter
of theirs (`Host.launch`, `Console.Surroundings.launch`), and what is proved about them holds of
every choice. The program chooses `launch`.
-/

namespace SoloBuild.Shell

/-- The bound on evaluation: enough for long scripts, and for loops of many rounds. -/
def evaluationBound : Nat := 100000

/-- What is written to a stream, and until when it is open if a process holds it so long. -/
def streamOf (st : State) (outlet : Outlet) (duration : Nat) : OutputStream :=
  { pieces := st.piecesOf outlet, closed := st.closedAt outlet duration / 1000 }

/-- The run of a process that has come to a state. -/
def runOf (st : State) (ending : Option Flow) : ProcessRun :=
  let duration := if ending = some .stuck then st.clock + 1000 * endless else st.clock
  let code : Option Int32 := match ending with
    | some (.killed _) | some .stuck => none
    | _ => some (Int32.ofNat (st.status % 256))
  { stdout := streamOf st .stdout duration, stderr := streamOf st .stderr duration
    duration := duration / 1000, code }

/-- A text holds a NUL character. -/
def holdsNul (text : String) : Bool := text.toList.contains '\x00'

/-- The variables that commands get to know. -/
def startEnvironment : List (String × String) := [("PATH", searchPath)]

/-- Starts a command. -/
def launch (files : FileTree) (command : BuildCommand) : Except OsError (ProcessRun × FileTree) :=
  if (command.program.text :: command.workingDir.text :: command.args).any holdsNul then
    .error .nulInCommand
  else
    match files.find command.workingDir true with
    | .error e => .error e
    | .ok ⟨_, none⟩ => .error .notFound
    | .ok ⟨place, some .directory⟩ =>
      let inside := { files with workingDir := place }
      let name := byteText command.program.text
      match if name.isEmpty then .error .notFound else programPath inside searchPath name with
      | .error e => .error e
      | .ok path =>
        match Invocation.resolve inside interpreterLimit path name (command.args.map byteText) with
        | .error e => .error e
        | .ok i =>
          let start : State := { files := inside }
          let part := runInvocation evaluationBound {} startEnvironment i
          let (ended, st) := Run.outcome part start
          let ending := match ended with
            | .ok ending => ending
            | .error flow => some flow
          .ok (runOf st ending, { st.files with workingDir := files.workingDir })
    | .ok _ => .error .notADirectory

/-- The directories and programs of the system. -/
def systemFiles (workingDir : Location) : FileTree :=
  let dirs : List Location := [["bin"], ["usr"], ["usr", "bin"], ["dev"], ["tmp"]]
  let inDir (dir : Location) : List (Location × Node) :=
    programs.map fun name => (dir ++ [name], Node.program name)
  { nodes := dirs.map (fun dir => (dir, .directory)) ++ inDir ["bin"] ++ inDir ["usr", "bin"]
    workingDir }

end SoloBuild.Shell
