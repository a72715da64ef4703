import SoloBuild.Console.Run

/-!
# The command line program

Reads the description of a workspace from its input, runs the command line on it, shows what the
command shows, and ends with the command's exit code.
-/

namespace SoloBuild.Console

/-- Everything that an input stream holds. -/
partial def readAll (input : IO.FS.Stream) (read : String) : IO String := do
  let line ← input.getLine
  if line.isEmpty then return read else readAll input (read ++ line)

end SoloBuild.Console

/-- Runs the command line that the arguments are. -/
def main (args : List String) : IO UInt32 := do
  let description ← SoloBuild.Console.readAll (← IO.getStdin) ""
  let result := SoloBuild.Console.runDescribed description args
  (← IO.getStdout).putStr result.terminal.stdout
  (← IO.getStderr).putStr result.terminal.stderr
  return UInt32.ofNat result.code
