import SoloBuild.Console.Command
import SoloBuild.Console.Duration
import SoloBuild.Console.Workspace
import SoloBuild.Shell.System

/-!
# Running the program

A command takes the way in which commands of the system are started from its surroundings. Here the
two are put together: a command line is run on the files that a description lays out, and what it
starts is run by the interpreter of scripts.
-/

namespace SoloBuild.Console

/-- The directory that a workspace is laid out in. -/
def workspaceDirectory : Location := ["workspace"]

/-- The result of a command line on a described workspace. -/
def runDescribed (description : String) (args : List String) : Result :=
  let system := Shell.systemFiles workspaceDirectory
  let files := (system.add (.directory (Path.ofLocation workspaceDirectory))).layOut
    (workspaceEntries description)
  runArguments { launch := Shell.launch, showDuration := formatDuration } false files args

end SoloBuild.Console
