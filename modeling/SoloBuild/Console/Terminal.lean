import SoloBuild.Process.Sink
import SoloBuild.Process.State
import SoloBuild.Text.Substring

/-!
# The terminal

What is shown on the two output streams. Messages begin with a symbol of their kind; lines of build
output that mention an error or a warning stand out. Without colours the text is the same.
-/

namespace SoloBuild.Console

open Text

/-- The colours in use. -/
inductive Colour where
  | red
  | green
  | yellow
  | blue
  deriving DecidableEq, Repr

/-- The number of a colour in a terminal's control sequences. -/
def Colour.code : Colour → String
  | red => "31"
  | green => "32"
  | yellow => "33"
  | blue => "34"

/-- A text in a colour. -/
def Colour.paint (c : Colour) (text : String) : String :=
  "\x1b[" ++ c.code ++ "m" ++ text ++ "\x1b[39m"

/-- What was shown on a terminal. -/
structure Terminal where
  coloured : Bool := false
  stdout : String := ""
  stderr : String := ""
  deriving DecidableEq, Repr

namespace Terminal

/-- A text in a colour, if the terminal has colours. -/
def paint (t : Terminal) (c : Colour) (text : String) : String :=
  if t.coloured then c.paint text else text

def print (t : Terminal) (text : String) : Terminal :=
  { t with stdout := t.stdout ++ text }

def printError (t : Terminal) (text : String) : Terminal :=
  { t with stderr := t.stderr ++ text }

/-- Something went well. -/
def success (t : Terminal) (message : String) : Terminal :=
  t.print (t.paint .green "✓" ++ " " ++ message ++ "\n")

/-- Something worth knowing. -/
def info (t : Terminal) (message : String) : Terminal :=
  t.print (t.paint .blue "•" ++ " " ++ message ++ "\n")

/-- Something went wrong. -/
def failure (t : Terminal) (message : String) : Terminal :=
  t.printError (t.paint .red "✗" ++ " " ++ t.paint .red message ++ "\n")

/-- Something to look out for. -/
def warning (t : Terminal) (message : String) : Terminal :=
  t.printError (t.paint .yellow "⚠" ++ " " ++ t.paint .yellow message ++ "\n")

/-- A line of build output. -/
def outputLine (t : Terminal) (text : String) : Terminal :=
  let lower := text.toList.map Char.toLower
  if occursIn "error".toList lower then t.print (t.paint .red text)
  else if occursIn "warning".toList lower then t.print (t.paint .yellow text)
  else t.print text

/-- What a sink is told about a build. -/
def tell (t : Terminal) : SinkCall → Terminal
  | .write text => t.outputLine text
  | .clear | .activate => t

/-- The end of a build, after some time. -/
def buildResult (t : Terminal) (state : ProcessState) (elapsed : String) : Terminal :=
  match state with
  | .exited (some 0) => t.success ("Build succeeded in " ++ elapsed)
  | .killed => t.warning ("Build cancelled after " ++ elapsed)
  | state => t.failure ("Build failed (" ++ state.display ++ ") after " ++ elapsed)

end Terminal

end SoloBuild.Console
