import SoloBuild.Engine.Request

/-!
# Sessions

A session is an engine together with what its host has told about its own builds. A host build makes
the engine's processes give way to it, and a follow-up that was deferred to the host's next build is
queued once that build has begun. The host asks before it runs a command of its own, so that the
engine can run the command in its place.
-/

namespace SoloBuild

/-- The state of a session. -/
structure Session where
  engine : Engine
  /-- The host has begun a build and not ended it. -/
  hostBuildRunning : Bool := false
  /-- The follow-up to queue when the host begins its next build. -/
  deferred : Option FollowUp := none
  /-- What the user was asked, in order. -/
  asked : List String := []

/-- How a command of the host is treated. -/
inductive InterceptMode where
  /-- The engine runs the command, unless it falls back. -/
  | preempt
  /-- The host runs the command. -/
  | listen
  deriving DecidableEq, Repr

/-- What the host does with its command. -/
inductive Decision where
  | cancelDefault
  | runDefault
  deriving DecidableEq, Repr

/-- A command of the host that the engine can run. -/
inductive CommandRequest where
  | compile (file : Path) (configuration : String)
  | build (projects : List String) (configuration : String) (clean : Bool)
  | debug (project configuration : String) (followUp : FollowUp)
  deriving DecidableEq, Repr

/-- The channel a command runs on. -/
def CommandRequest.channel : CommandRequest → Channel
  | compile .. => .singleFile
  | build .. => .selection
  | debug .. => .startup

/-- The engine takes the place of the host unless it falls back. -/
def Decision.ofOutcome : Outcome → Decision
  | .fallback _ => .runDefault
  | .started .. | .completed .. | .busy _ => .cancelDefault

namespace Session

/-- What the user is asked before a running build is stopped. -/
def stopQuestion : String := "A build is already running. Do you want to stop it?"

/-- Takes in a signal about a build. The answer says whether a follow-up ran. -/
def signal (s : Session) (signal : BuildSignal) : Session × Bool :=
  let signalled := s.engine.signal signal
  ({ s with engine := signalled.1 }, signalled.2)

/-- Keeps a follow-up for the host's next build. -/
def deferFollowUp (s : Session) (f : FollowUp) : Session :=
  { s with deferred := some f }

/-- A unit of the host's build has ended. -/
def unitDone (s : Session) (unit : String) (success : Bool) : Session :=
  (s.signal (.unitDone unit success)).1

/-- The host's build has ended. The answer says whether a follow-up ran. -/
def buildDone (s : Session) : Session × Bool :=
  { s with hostBuildRunning := false }.signal .done

/-- The host's build is to be cancelled. -/
def cancelRequested (s : Session) : Session :=
  ({ s with deferred := none }.signal .cancelRequested).1

/-- The host's build begins, now that the engine's own processes have been killed. -/
def hostBegun (s : Session) : Session :=
  let s := (s.signal .begin).1
  match s.deferred with
  | none => s
  | some f => { s with deferred := none, engine := s.engine.requestFollowUp f }

end Session

end SoloBuild
