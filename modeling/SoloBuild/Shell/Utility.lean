import SoloBuild.Shell.Calculation
import SoloBuild.Shell.FileUtility
import SoloBuild.Shell.Search
import SoloBuild.Shell.TextUtility

/-!
# The utilities of the system

The utilities by name. Those that start other programs are known by name only.
-/

namespace SoloBuild.Shell

/-- What `true` does, which is nothing. -/
def runTrue (e : Effect) (_ : List String) : Effect := { e with status := 0 }

/-- What `test` does: its status tells whether a condition holds. -/
def runTest (e : Effect) (args : List String) : Effect :=
  match Condition.holds e.files args with
  | .ok holds => { e with status := if holds then 0 else 1 }
  | .error misuse => e.complain misuse.message 2

/-- What `test` does under its other name, which asks for a bracket at the end. -/
def runBracket (e : Effect) (args : List String) : Effect :=
  if args.getLast? = some "]" then runTest e args.dropLast else e.complain "missing ']'" 2

/-- What `pwd` does. -/
def runPwd (e : Effect) (args : List String) : Effect :=
  e.withArguments { flags := "LP" } 1 args fun _ =>
    e.write (bytesOf (byteText (Path.ofLocation e.files.workingDir).text ++ "\n"))

/-- What `printenv` does: the values of variables, or all variables. -/
def runPrintenv (e : Effect) (args : List String) : Effect :=
  match args with
  | [] =>
    e.write (e.environment.flatMap fun (name, value) => bytesOf (name ++ "=" ++ value ++ "\n"))
  | names => names.foldl (fun (e : Effect) name =>
    match e.environment.lookup name with
    | some value => e.write (bytesOf (value ++ "\n"))
    | none => { e with status := 1 }) e

/-- The utilities that start no other programs. -/
def utilities : List (String × (Effect → List String → Effect)) :=
  [("true", runTrue), ("false", fun e _ => { e with status := 1 }),
    ("echo", fun e args => e.write (echoProgram args)), ("printf", runPrintf), ("cat", runCat),
    ("head", runHead), ("tail", runTail), ("tr", Exchange.run), ("sed", runSed),
    ("grep", runGrep), ("egrep", fun e args => runGrep e ("-E" :: args)),
    ("fgrep", fun e args => runGrep e ("-F" :: args)), ("wc", runWc), ("sort", runSort),
    ("uniq", runUniq), ("cut", runCut), ("tee", runTee), ("tac", runTac), ("rev", runRev),
    ("yes", runYes), ("basename", runBasename), ("dirname", runDirname),
    ("readlink", runReadlink false), ("realpath", runReadlink true), ("seq", runSeq),
    ("expr", runExpr), ("sleep", runSleep), ("test", runTest), ("[", runBracket),
    ("touch", runTouch), ("mkdir", runMkdir), ("rmdir", runRmdir), ("rm", runRm), ("cp", runCp),
    ("mv", runMv), ("ln", runLn), ("chmod", runChmod), ("ls", runLs), ("dd", runDd),
    ("pwd", runPwd), ("printenv", runPrintenv)]

/-- The programs of the system. -/
def programs : List String :=
  utilities.map (·.1) ++ ["sh", "dash", "bash", "env", "xargs", "nohup"]

end SoloBuild.Shell
