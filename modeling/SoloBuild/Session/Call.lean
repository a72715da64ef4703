import SoloBuild.Session.Basic

/-!
# Calls

What can be asked of a session. Most calls end at once. Some have to wait for a process to be
released, and other calls may come in between: such a call is a `Task`, which holds the process that
it waits for and what it is going to do then. Everything between two waits happens in one step.

- `resume` and `begin` are total: a task that is resumed before its process is released would only
  see the state of that process as it is then.
-/

namespace SoloBuild

/-- What can be asked of a session. -/
inductive Call where
  | compile (file : Path) (configuration : String)
  | build (projects : List String) (configuration : String) (clean : Bool)
  | debug (project configuration : String) (followUp : FollowUp)
  /-- Start a command on a channel. -/
  | start (channel : Channel) (command : BuildCommand)
  /-- Start a command on a channel, and report its end as the end of a build of one unit. -/
  | runUnit (unit : String) (channel : Channel) (command : BuildCommand)
  | kill (channel : Channel)
  | killAll
  | cancelAll
  | signal (signal : BuildSignal)
  | requestFollowUp (followUp : FollowUp)
  | deferFollowUp (followUp : FollowUp)
  | buildBegin
  | unitDone (unit : String) (success : Bool)
  | buildDone
  | cancelRequested
  /-- Decide what the host does with a command. The user would confirm, or not, that a running build
  is stopped. -/
  | intercept (mode : InterceptMode) (confirm : Bool) (request : CommandRequest)
  deriving DecidableEq, Repr

/-- The answer to a call. -/
inductive Answer where
  | nothing
  /-- A process was killed, or a follow-up ran. -/
  | flag (value : Bool)
  /-- So many processes were killed. -/
  | count (killed : Nat)
  | outcome (outcome : Outcome)
  | refused (reason : ProcessError)
  | decision (decision : Decision)
  deriving DecidableEq, Repr

/-- A call that waits for a process to be released. -/
inductive Task where
  | kill (process : Nat)
  | killAll (sweep : Processes.Sweep)
  | cancelAll (sweep : Processes.Sweep)
  /-- A build of one unit. -/
  | unitRun (completion : Completion)
  | hostBegin (sweep : Processes.Sweep)
  /-- A command of the host whose channel is being freed. -/
  | interceptKill (process : Nat) (request : CommandRequest)
  /-- A debugging command of the host. -/
  | interceptRun (completion : Completion)
  deriving DecidableEq, Repr

/-- The process a task waits for. -/
def Task.process : Task → Nat
  | kill process => process
  | killAll sweep | cancelAll sweep | hostBegin sweep => sweep.process
  | unitRun completion | interceptRun completion => completion.process
  | interceptKill process _ => process

/-- How often a task may still have to wait, this time included. -/
def Task.waits : Task → Nat
  | kill _ | unitRun _ | interceptRun _ => 1
  | killAll sweep | cancelAll sweep | hostBegin sweep => sweep.rest.length + 1
  | interceptKill .. => 2

/-- What a call or a task has come to: its answer, or a task that goes on later. -/
abbrev Progress := Answer ⊕ Task

namespace Session

/-- Goes on after killing processes one by one. -/
def afterSweep (s : Session) (swept : Processes × (Processes.Sweep ⊕ Nat))
    (wait : Processes.Sweep → Task) (finish : Session → Nat → Session × Answer) :
    Session × Progress :=
  let s := { s with engine.processes := swept.1 }
  match swept.2 with
  | .inl sweep => (s, .inr (wait sweep))
  | .inr killed =>
    let finished := finish s killed
    (finished.1, .inl finished.2)

/-- All processes have been killed. -/
def killedAll (s : Session) (killed : Nat) : Session × Answer :=
  (s, .count killed)

/-- All processes have been killed on the user's demand. -/
def cancelledAll (s : Session) (killed : Nat) : Session × Answer :=
  ({ s with engine := s.engine.finishCancel killed }, .count killed)

/-- All processes have been killed for the host's build. -/
def begunAfterKills (s : Session) (_killed : Nat) : Session × Answer :=
  (s.hostBegun, .nothing)

/-- An engine's answer to a request that ends at once. -/
def answered (s : Session) (answer : Engine × Outcome) : Session × Progress :=
  ({ s with engine := answer.1 }, .inl (.outcome answer.2))

/-- Runs a command in place of the host. -/
def runCommand (h : Host) (s : Session) : CommandRequest → Session × Progress
  | .compile file configuration =>
    let ran := s.engine.compileSingleFile h file configuration
    ({ s with engine := ran.1 }, .inl (.decision (.ofOutcome ran.2)))
  | .build projects configuration clean =>
    let ran := s.engine.buildSelection h projects configuration clean
    ({ s with engine := ran.1 }, .inl (.decision (.ofOutcome ran.2)))
  | .debug project configuration followUp =>
    let ran := s.engine.debugStartup h project configuration followUp
    ({ s with engine := ran.1 },
      match ran.2 with
      | .inl outcome => .inl (.decision (.ofOutcome outcome))
      | .inr completion => .inr (.interceptRun completion))

/-- Decides about a command of the host, before any process has to be waited for. -/
def intercept (h : Host) (s : Session) (confirm : Bool) (request : CommandRequest) :
    Session × Progress :=
  if s.hostBuildRunning then
    ({ s with engine := s.engine.say "A build is already in progress." },
      .inl (.decision .cancelDefault))
  else if s.engine.isRunning request.channel then
    -- The user is asked even if the process is about to end by itself.
    let s := { s with asked := s.asked ++ [stopQuestion] }
    if confirm then
      match s.engine.processes.requestKill request.channel with
      | (processes, some process) =>
        ({ s with engine.processes := processes }, .inr (.interceptKill process request))
      | (_, none) => s.runCommand h request
    else (s, .inl (.decision .cancelDefault))
  else s.runCommand h request

/-- Lets the host run its command; the follow-up of a debugging command waits for the host's
build. -/
def listen (s : Session) : CommandRequest → Session × Progress
  | .debug _ _ followUp => (s.deferFollowUp followUp, .inl (.decision .runDefault))
  | .compile .. | .build .. => (s, .inl (.decision .runDefault))

/-- Carries out a call up to its end or its first wait. -/
def begin (h : Host) (s : Session) : Call → Session × Progress
  | .compile file configuration => s.answered (s.engine.compileSingleFile h file configuration)
  | .build projects configuration clean =>
    s.answered (s.engine.buildSelection h projects configuration clean)
  | .debug project configuration followUp =>
    let ran := s.engine.debugStartup h project configuration followUp
    ({ s with engine := ran.1 },
      match ran.2 with
      | .inl outcome => .inl (.outcome outcome)
      | .inr completion => .inr (.unitRun completion))
  | .start channel command =>
    let started := s.engine.start h channel command
    ({ s with engine := started.1 },
      match started.2 with
      | .ok process => .inl (.outcome (.started channel process))
      | .error reason => .inl (.refused reason))
  | .runUnit unit channel command =>
    let started := s.engine.start h channel command
    ({ s with engine := started.1 },
      match started.2 with
      | .ok process => .inr (.unitRun { unit, process })
      | .error reason => .inl (.refused reason))
  | .kill channel =>
    let requested := s.engine.processes.requestKill channel
    ({ s with engine.processes := requested.1 },
      match requested.2 with
      | some process => .inr (.kill process)
      | none => .inl (.flag false))
  | .killAll => s.afterSweep (s.engine.processes.sweep 0 Channel.all) .killAll killedAll
  | .cancelAll => s.afterSweep (s.engine.processes.sweep 0 Channel.all) .cancelAll cancelledAll
  | .signal signal =>
    let signalled := s.signal signal
    (signalled.1, .inl (.flag signalled.2))
  | .requestFollowUp followUp =>
    ({ s with engine := s.engine.requestFollowUp followUp }, .inl .nothing)
  | .deferFollowUp followUp => (s.deferFollowUp followUp, .inl .nothing)
  | .buildBegin =>
    -- From here on the host's commands are refused, also while the sweep waits.
    let s := { s with hostBuildRunning := true }
    s.afterSweep (s.engine.processes.sweep 0 Channel.all) .hostBegin begunAfterKills
  | .unitDone unit success => (s.unitDone unit success, .inl .nothing)
  | .buildDone =>
    let done := s.buildDone
    (done.1, .inl (.flag done.2))
  | .cancelRequested => (s.cancelRequested, .inl .nothing)
  | .intercept .preempt confirm request => s.intercept h confirm request
  | .intercept .listen _ request => s.listen request

/-- Carries on a task, now that the process it waits for has been released. -/
def resume (h : Host) (s : Session) : Task → Session × Progress
  | .kill _ => (s, .inl (.flag true))
  | .killAll sweep => s.afterSweep (s.engine.processes.resumeSweep sweep) .killAll killedAll
  | .cancelAll sweep => s.afterSweep (s.engine.processes.resumeSweep sweep) .cancelAll cancelledAll
  | .hostBegin sweep =>
    s.afterSweep (s.engine.processes.resumeSweep sweep) .hostBegin begunAfterKills
  | .unitRun completion => s.answered (s.engine.complete completion)
  | .interceptKill _ request => s.runCommand h request
  | .interceptRun completion =>
    let ended := s.engine.complete completion
    ({ s with engine := ended.1 }, .inl (.decision (.ofOutcome ended.2)))

end Session

end SoloBuild
