import SoloBuild.Process.Run

/-!
# Control of build processes

Every started process is watched by a supervisor until it is released: the supervisor sees the
process end and waits for its output, or it is told to kill the process and waits for that. Only
then is the final state published. All processes are kept, in the order in which they were started;
the last one on a channel is the channel's process.

Killing takes two steps that other calls may come between: the request, and the answer once the
process has been released. Only the first request for a process is taken.
-/

namespace SoloBuild

/-- What the supervisor of a process is doing. -/
inductive Supervision where
  /-- The process runs. -/
  | watching
  /-- The process has ended, and its output is waited for. -/
  | draining (code : Option Int32)
  /-- The process was told to end. -/
  | killing
  /-- The process ended by itself and is released. -/
  | exited (code : Option Int32)
  /-- The process was killed and is released. -/
  | killed
  deriving DecidableEq, Repr

/-- The published state of a process. -/
def Supervision.state : Supervision → ProcessState
  | watching | draining _ | killing => .running
  | exited code => .exited code
  | killed => .killed

/-- A started process. -/
structure BuildProcess where
  channel : Channel
  command : BuildCommand
  run : ProcessRun
  supervision : Supervision := .watching
  /-- Somebody has asked for the process to be killed. -/
  killRequested : Bool := false
  deriving DecidableEq, Repr

namespace BuildProcess

/-- The published state of a process. -/
def state (p : BuildProcess) : ProcessState :=
  p.supervision.state

/-- The process is not released yet. -/
def isLive (p : BuildProcess) : Bool :=
  p.state.isRunning

/-- The process runs on until it ends by itself, or has done so and its output is waited for. -/
def endsByItself (p : BuildProcess) : Bool :=
  match p.supervision with
  | .watching => !p.killRequested
  | .draining _ => true
  | .killing | .exited _ | .killed => false

/-- The supervisor sees the process end. -/
def observeExit (code : Option Int32) (p : BuildProcess) : BuildProcess :=
  match p.supervision with
  | .watching => { p with supervision := .draining code }
  | _ => p

/-- The supervisor has waited for the output, and publishes the end of the process. -/
def drained (p : BuildProcess) : BuildProcess :=
  match p.supervision with
  | .draining code => { p with supervision := .exited code }
  | _ => p

/-- The supervisor receives the request to kill the process. -/
def takeKill (p : BuildProcess) : BuildProcess :=
  match p.supervision with
  | .watching => if p.killRequested then { p with supervision := .killing } else p
  | _ => p

/-- The supervisor has waited for the killed process, and releases it. -/
def release (p : BuildProcess) : BuildProcess :=
  match p.supervision with
  | .killing => { p with supervision := .killed }
  | _ => p

end BuildProcess

/-- All processes that were started, in order. A process is known by its position. -/
abbrev Processes := List BuildProcess

namespace Processes

/-- The last process started on a channel, with its position. -/
def latest? (ps : Processes) (c : Channel) : Option (BuildProcess × Nat) :=
  ps.zipIdx.reverse.find? fun (p, _) => p.channel == c

/-- The channel has a process that is not released yet. -/
def isLive (ps : Processes) (c : Channel) : Bool :=
  match ps.latest? c with
  | some (p, _) => p.isLive
  | none => false

/-- The state of the last process on a channel. -/
def state (ps : Processes) (c : Channel) : ProcessState :=
  match ps.latest? c with
  | some (p, _) => p.state
  | none => .notStarted

/-- The command of the last process on a channel. -/
def command? (ps : Processes) (c : Channel) : Option BuildCommand :=
  (ps.latest? c).map fun (p, _) => p.command

/-- The state of the process at a position. -/
def stateAt (ps : Processes) (process : Nat) : ProcessState :=
  match ps[process]? with
  | some p => p.state
  | none => .notStarted

/-- The process at a position is released. -/
def isReleased (ps : Processes) (process : Nat) : Bool :=
  (ps.stateAt process).isTerminal

/-- A step of the supervisor of one process. -/
def supervise (ps : Processes) (process : Nat) (step : BuildProcess → BuildProcess) : Processes :=
  ps.modify process step

/-- Starts a process on a channel, given what launching its command gives. The new process gets the
next position. -/
def start (ps : Processes) (c : Channel) (command : BuildCommand)
    (launched : Except OsError ProcessRun) : Except ProcessError Processes :=
  if ps.isLive c then .error (.alreadyRunning c)
  else
    match launched with
    | .error cause => .error (.launch command.program cause)
    | .ok run => .ok (ps ++ [{ channel := c, command, run }])

/-- Asks for the process of a channel to be killed. The answer is the process to wait for, when the
request was taken. -/
def requestKill (ps : Processes) (c : Channel) : Processes × Option Nat :=
  match ps.latest? c with
  | none => (ps, none)
  | some (p, process) =>
    -- Whoever comes second does not wait for the end, and counts no process.
    if p.isLive && !p.killRequested then
      (ps.supervise process fun p => { p with killRequested := true }, some process)
    else (ps, none)

/-- A sweep over the channels that has killed some processes and waits for one more. -/
structure Sweep where
  /-- The process whose release is waited for. -/
  process : Nat
  /-- The channels that are still to be swept. -/
  rest : List Channel
  /-- How many processes were killed before. -/
  killed : Nat
  deriving DecidableEq, Repr

/-- Sweeps channels until there is a process to wait for, or none is left: then the answer is the
number of processes killed. -/
def sweep (ps : Processes) (killed : Nat) : List Channel → Processes × (Sweep ⊕ Nat)
  | [] => (ps, .inr killed)
  | c :: rest =>
    match ps.requestKill c with
    | (ps, some process) => (ps, .inl { process, rest, killed })
    | (ps, none) => sweep ps killed rest

/-- Goes on with a sweep once the process it waited for has been released. -/
def resumeSweep (ps : Processes) (s : Sweep) : Processes × (Sweep ⊕ Nat) :=
  sweep ps (s.killed + 1) s.rest

end Processes

end SoloBuild
