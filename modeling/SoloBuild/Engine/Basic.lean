import SoloBuild.Engine.Error
import SoloBuild.FileTree.Basic
import SoloBuild.Lifecycle
import SoloBuild.Process.Control
import SoloBuild.Solution.Manifest

/-!
# The engine

An engine serves the builds of one solution: it has the files, the processes it has started, the
lifecycle of builds with the follow-up that is pending, and what it has told its sink. A signal that
makes a follow-up due runs it once the lifecycle has taken the signal in, so what the follow-up
queues belongs to a later build.

- `signal_eq_true_iff`: a signal runs a follow-up exactly when the lifecycle hands one back.
-/

namespace SoloBuild

/-- An action to run after a build. It is known by its label, and queues the follow-up that has the
first of the later labels, if there is one. -/
structure FollowUp where
  label : String
  later : List String := []
  deriving DecidableEq, Repr

/-- The follow-up that a follow-up queues when it runs. -/
def FollowUp.next? (f : FollowUp) : Option FollowUp :=
  match f.later with
  | [] => none
  | label :: later => some { label, later }

/-- A follow-up that ran, and what it saw. -/
structure Firing where
  label : String
  /-- Another follow-up was pending while this one ran. -/
  sawPending : Bool
  /-- The phase in which it ran. -/
  phase : Phase
  deriving DecidableEq, Repr

/-- What an engine works with: the solution, and the system that starts its processes. Starting a
command answers what the process does, and the files it leaves. -/
structure Host where
  manifest : Manifest
  launch : FileTree → BuildCommand → Except OsError (ProcessRun × FileTree)

/-- The settings of the solution. -/
def Host.settings (h : Host) : Settings :=
  h.manifest.settings

/-- The state of an engine. -/
structure Engine where
  files : FileTree
  processes : Processes := []
  lifecycle : Lifecycle FollowUp := {}
  /-- The follow-ups that ran, in order. -/
  fired : List Firing := []
  /-- What the sink was told, in order. -/
  output : List SinkCall := []

namespace Engine

/-- The channel has a live process. -/
def isRunning (e : Engine) (c : Channel) : Bool :=
  e.processes.isLive c

/-- A follow-up is pending. -/
def hasPending (e : Engine) : Bool :=
  e.lifecycle.pending.isSome

/-- Tells the sink something. -/
def tell (e : Engine) (calls : List SinkCall) : Engine :=
  { e with output := e.output ++ calls }

/-- Writes a message to the sink. -/
def say (e : Engine) (message : String) : Engine :=
  e.tell [.writeLine message]

/-- Queues a follow-up in place of the one that is pending. -/
def requestFollowUp (e : Engine) (f : FollowUp) : Engine :=
  { e with lifecycle := e.lifecycle.request f }

/-- Runs a follow-up. -/
def fire (e : Engine) (f : FollowUp) : Engine :=
  let firing : Firing :=
    { label := f.label, sawPending := e.hasPending, phase := e.lifecycle.phase }
  let recorded := { e with fired := e.fired ++ [firing] }
  match f.next? with
  | none => recorded
  | some next => recorded.requestFollowUp next

/-- Takes in a signal. The answer says whether a follow-up ran. -/
def signal (e : Engine) (s : BuildSignal) : Engine × Bool :=
  match e.lifecycle.handle s with
  | (lifecycle, none) => ({ e with lifecycle }, false)
  | (lifecycle, some f) => ({ e with lifecycle }.fire f, true)

/-- Starts a process on a channel. The answer is its position. -/
def start (h : Host) (e : Engine) (c : Channel) (command : BuildCommand) :
    Engine × Except ProcessError Nat :=
  let launched := h.launch e.files command
  match e.processes.start c command (launched.map (·.1)) with
  | .error reason => (e, .error reason)
  | .ok processes =>
    let files := match launched with
      | .ok (_, files) => files
      | .error _ => e.files
    ({ e with files, processes }, .ok e.processes.length)

/-- A signal runs a follow-up exactly when the lifecycle hands one back. -/
theorem signal_eq_true_iff {e : Engine} {s : BuildSignal} :
    (e.signal s).2 = true ↔ (e.lifecycle.handle s).2.isSome = true := by
  unfold signal
  split <;> simp_all

end Engine

end SoloBuild
