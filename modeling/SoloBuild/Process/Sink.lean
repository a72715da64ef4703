import SoloBuild.Text.Lines

/-!
# Output sinks

Build output goes to a sink. What a sink is told is a list of calls; a buffer holds the text written
since it was last cleared.
-/

namespace SoloBuild

/-- What a sink is told. -/
inductive SinkCall where
  | write (text : String)
  /-- Discard what was written. -/
  | clear
  /-- Bring the sink to the user's attention. -/
  | activate
  deriving DecidableEq, Repr

namespace SinkCall

/-- Writes a message and ends its line. -/
def writeLine (message : String) : SinkCall :=
  .write (message ++ "\n")

/-- The text a buffer holds after one more call. -/
def apply (contents : String) : SinkCall → String
  | write text => contents ++ text
  | clear => ""
  | activate => contents

end SinkCall

/-- The text a buffer holds after some calls. -/
def bufferContents (calls : List SinkCall) : String :=
  calls.foldl SinkCall.apply ""

/-- The lines a buffer holds after some calls. -/
def bufferLines (calls : List SinkCall) : List String :=
  (Text.lines (bufferContents calls).toList).map String.ofList

end SoloBuild
