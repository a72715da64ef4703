import SoloBuild.Engine.Error
import SoloBuild.Text.Lines

/-!
# Failures

A command that cannot go on ends with a failure: what was attempted, and the chain of its causes. A
single cause is indented; several are numbered.
-/

namespace SoloBuild.Console

open Text

/-- Why a command could not go on. -/
structure Failure where
  attempted : String
  causes : List String
  deriving DecidableEq, Repr

namespace Failure

/-- The causes that a host error stands for, the error itself included. -/
def causesOfHost (e : HostError) : List String :=
  match e with
  | .read _ cause => [e.message, cause.message]
  | .parse _ => [e.message, "TOML parse error"]
  | e => [e.message]

/-- The causes that an engine error stands for, the error itself included. -/
def causesOfEngine (e : EngineError) : List String :=
  match e with
  | .host cause => causesOfHost cause
  | e => e.message :: (e.source?.map OsError.message).toList

/-- A text with every line after the first one indented. -/
def indented (indent : String) (text : String) : String :=
  String.intercalate ("\n" ++ indent) ((splitLines text.toList).map String.ofList)

/-- A number, right-aligned in five places. -/
def causeNumber (n : Nat) : String :=
  let digits := toString n
  String.ofList (List.replicate (5 - digits.length) ' ') ++ digits ++ ": "

/-- The text a failure is reported with. -/
def report (f : Failure) : String :=
  let causes := match f.causes with
    | [] => ""
    | [cause] => "\n\nCaused by:\n    " ++ indented "    " cause
    | causes =>
      "\n\nCaused by:" ++ String.join (causes.zipIdx.map fun (cause, n) =>
        "\n" ++ causeNumber n ++ indented "       " cause)
  "Error: " ++ f.attempted ++ causes ++ "\n"

end Failure

end SoloBuild.Console
