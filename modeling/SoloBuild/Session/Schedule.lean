import SoloBuild.Session.Call

/-!
# Running calls to their end

One way to run a session: calls are made one after the other, and each is carried to its end before
the next. Time passes only while a call waits for a process that ends by itself; what ends until
then ends first, in the order of time. The output of a process is forwarded before its end is
observed. Requests may go on in the background; when the process such a request waits for has been
released, it comes to its end before the call that released the process goes on. Only the latest of
them is held, and can be waited for once; the others go on without being held.
-/

namespace SoloBuild

/-- A session with the requests in its background, the latest first: what each has come to. -/
structure Stage where
  session : Session
  background : List Progress := []
  /-- The latest request in the background is held. -/
  held : Bool := false
  /-- The time, in milliseconds. -/
  clock : Nat := 0
  /-- When the processes were started, in order. Those missing at the end were started since the
  clock last moved. -/
  startTimes : List Nat := []

namespace Stage

/-- A step of the supervisor of a process. -/
def supervise (st : Stage) (process : Nat) (step : BuildProcess → BuildProcess) : Stage :=
  { st with
    session.engine.processes := st.session.engine.processes.supervise process step }

/-- Carries on a request when the process it waits for is released. -/
def settleRequest (h : Host) (s : Session) : Progress → Session × Progress
  | .inl answer => (s, .inl answer)
  | .inr task =>
    if s.engine.processes.isReleased task.process then s.resume h task else (s, .inr task)

/-- Carries on those requests whose process is released. -/
def settleAll (h : Host) (s : Session) : List Progress → Session × List Progress
  | [] => (s, [])
  | request :: rest =>
    -- Requests see each other's effects in the order of the list.
    let settled := settleRequest h s request
    let others := settleAll h settled.1 rest
    (others.1, settled.2 :: others.2)

/-- Carries on the requests in the background whose process is released. -/
def settle (h : Host) (st : Stage) : Stage :=
  let settled := settleAll h st.session st.background
  { st with session := settled.1, background := settled.2 }

/-- When a process was started. -/
def startTime (st : Stage) (process : Nat) : Nat :=
  st.startTimes.getD process st.clock

/-- When a process is released that ends by itself. -/
def releaseTime (h : Host) (st : Stage) (process : Nat) (p : BuildProcess) : Nat :=
  st.startTime process + p.run.observedAt h.settings.killGraceMs.toNat

/-- Moves the clock. -/
def moveClock (st : Stage) (time : Nat) : Stage :=
  let unnoted := st.session.engine.processes.length - st.startTimes.length
  { st with
    clock := max st.clock time
    startTimes := st.startTimes ++ List.replicate unnoted st.clock }

/-- Lets a process end by itself, unless it has been killed or has ended before. -/
def endByItself (h : Host) (st : Stage) (process : Nat) : Stage :=
  match st.session.engine.processes[process]? with
  | none => st
  | some p =>
    if p.endsByItself then
      -- Output that a held stream brings later than the grace period is lost.
      let output := p.run.forwarded h.settings.killGraceMs.toNat
      let told := { st with session.engine := st.session.engine.tell output }
      ((told.supervise process (.observeExit p.run.code)).supervise process .drained).settle h
    else st

/-- The processes that are released by themselves before `last` is, and `last` itself, the first one
first. -/
def endingUntil (h : Host) (st : Stage) (time last : Nat) : List Nat :=
  let ending := st.session.engine.processes.zipIdx.filterMap fun (p, process) =>
    let released := st.releaseTime h process p
    if p.endsByItself && (released < time || released == time && process ≤ last) then
      some (released, process)
    else none
  (ending.mergeSort fun a b => a.1 ≤ b.1).map (·.2)

/-- The supervisors see the processes that have ended by some time. -/
def observeExits (st : Stage) (time : Nat) : Stage :=
  let observed := st.session.engine.processes.zipIdx.map fun (p, process) =>
    if p.endsByItself && st.startTime process + p.run.duration ≤ time then
      p.observeExit p.run.code
    else p
  { st with session.engine.processes := observed }

/-- Lets a process end: on request when it is to be killed, and by itself otherwise. -/
def endProcess (h : Host) (st : Stage) (process : Nat) : Stage :=
  match st.session.engine.processes[process]? with
  | none => st
  | some p =>
    if p.supervision = .watching && p.killRequested then
      ((st.supervise process .takeKill).supervise process .release).settle h
    else
      let time := st.releaseTime h process p
      let ended := (st.endingUntil h time process).foldl (endByItself h) st
      (ended.observeExits time).moveClock time

/-- Carries a task to its end. The first argument bounds how often it has to wait. -/
def finish (h : Host) : Nat → Stage → Progress → Stage × Answer
  | _, st, .inl answer => (st, answer)
  | 0, st, .inr _ => (st, .nothing)
  | waits + 1, st, .inr task =>
    let st := st.endProcess h task.process
    let resumed := st.session.resume h task
    finish h waits { st with session := resumed.1 } resumed.2

/-- Makes a call and carries it to its end. -/
def perform (h : Host) (st : Stage) (call : Call) : Stage × Answer :=
  let begun := st.session.begin h call
  -- A task that has begun knows how many waits are left to it.
  let waits := match begun.2 with
    | .inl _ => 0
    | .inr task => task.waits
  finish h waits { st with session := begun.1 } begun.2

/-- Makes a call in the background: it is left alone at its first wait. -/
def performInBackground (h : Host) (st : Stage) (call : Call) : Stage :=
  let begun := st.session.begin h call
  { st with session := begun.1, background := begun.2 :: st.background, held := true }

/-- Waits for the process of a channel to be released. -/
def await (h : Host) (st : Stage) (c : Channel) : Stage :=
  match st.session.engine.processes.latest? c with
  | some (p, process) => if p.isLive then st.endProcess h process else st
  | none => st

/-- Waits for the request in the background that is held, and answers what it came to. -/
def join (h : Host) (st : Stage) : Stage × Option Answer :=
  if !st.held then (st, none)
  else
    let st := match st.background with
      | .inr task :: _ => st.endProcess h task.process
      | _ => st
    match st.background with
    | .inl answer :: rest => ({ st with background := rest, held := false }, some answer)
    | _ => ({ st with held := false }, none)

end Stage

end SoloBuild
