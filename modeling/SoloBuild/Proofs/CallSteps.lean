import SoloBuild.Proofs.ProcessTable

/-!
# The steps of calls

What a call changes before it ends or waits, and what it changes when it goes on. Each request of an
engine and each call of a session is opened here once; what is said of all events later is derived
from these lemmas.

## Key results

- `Engine.start_cases`, `Engine.debugStartup_cases`: how starting a process and a request for
  debugging come out
- `Session.change_begin`, `Session.change_resume`: what a call does to the table of processes
- `Interleaving.processes_next_cases`, `Interleaving.keeps_run`: what an event and a run do to it
-/

namespace SoloBuild

/-- The process that a task has asked to end. -/
def Task.asked? : Task → Option Nat
  | .kill process | .interceptKill process _ => some process
  | .killAll sweep | .cancelAll sweep | .hostBegin sweep => some sweep.process
  | .unitRun _ | .interceptRun _ => none

/-- The process for whose end a call waits, when it has asked for that. -/
def Progress.asked? : Progress → Option Nat
  | .inl _ => none
  | .inr task => task.asked?

/-- What the sink is told when a request falls back for this reason. -/
def EngineError.report (reason : EngineError) : List SinkCall :=
  [.writeLine ("Error: " ++ reason.message), .writeLine "Falling back to default build..."]

namespace Engine

/-! ## Requests of an engine -/

variable (h : Host) (e : Engine)

theorem output_fallBack (reason : EngineError) :
    (e.fallBack reason).1.output = e.output ++ reason.report :=
  List.append_assoc ..

@[simp] theorem processes_fire (f : FollowUp) : (e.fire f).processes = e.processes := by
  rw [fire]
  cases f.next? <;> rfl

@[simp] theorem processes_signal (s : BuildSignal) : (e.signal s).1.processes = e.processes := by
  rw [signal]
  split
  · rfl
  · exact processes_fire _ _

@[simp] theorem processes_complete (c : Completion) : (e.complete c).1.processes = e.processes := by
  simp [complete]

@[simp] theorem processes_finishCancel (killed : Nat) :
    (e.finishCancel killed).processes = e.processes := by
  rw [finishCancel]
  split
  · exact processes_signal e _
  · exact processes_signal e _

@[simp] theorem files_fire (f : FollowUp) : (e.fire f).files = e.files := by
  rw [fire]
  cases f.next? <;> rfl

@[simp] theorem files_signal (s : BuildSignal) : (e.signal s).1.files = e.files := by
  rw [signal]
  split
  · rfl
  · exact files_fire _ _

@[simp] theorem files_complete (c : Completion) : (e.complete c).1.files = e.files := by
  simp [complete]

@[simp] theorem files_finishCancel (killed : Nat) : (e.finishCancel killed).files = e.files := by
  rw [finishCancel]
  split
  · exact files_signal e _
  · exact files_signal e _

/-- Starting a process on a channel changes nothing, as the channel is not free or the launch fails,
or it adds the process, with the files that the launch leaves. -/
theorem start_cases (c : Channel) (command : BuildCommand) :
    (e.processes.isLive c = true ∧ e.start h c command = (e, .error (.alreadyRunning c))) ∨
      (∃ cause, e.processes.isLive c = false ∧ h.launch e.files command = .error cause ∧
        e.start h c command = (e, .error (.launch command.program cause))) ∨
      ∃ run files, e.processes.isLive c = false ∧ h.launch e.files command = .ok (run, files) ∧
        e.start h c command =
          ({ e with files, processes := e.processes ++ [{ channel := c, command, run }] },
            .ok e.processes.length) := by
  simp only [start, Processes.start]
  cases e.processes.isLive c with
  | true => exact .inl ⟨rfl, rfl⟩
  | false =>
    cases h.launch e.files command with
    | error cause => exact .inr (.inl ⟨cause, rfl, rfl, rfl⟩)
    | ok launched => exact .inr (.inr ⟨launched.1, launched.2, rfl, rfl, rfl⟩)

/-- A start is refused as one on a running channel exactly when the channel has a live process. -/
theorem start_eq_alreadyRunning_iff (c : Channel) (command : BuildCommand) :
    (e.start h c command).2 = .error (.alreadyRunning c) ↔ e.processes.isLive c = true := by
  rw [← @Processes.start_eq_alreadyRunning_iff _ _ command ((h.launch e.files command).map (·.1)),
    start]
  dsimp only
  split
  · next heq => rw [heq, Except.error.injEq, Except.error.injEq]
  · next heq => rw [heq]; simp

theorem change_start (c : Channel) (command : BuildCommand) :
    e.processes.Change (e.start h c command).1.processes none := by
  obtain ⟨_, heq⟩ | ⟨_, _, _, heq⟩ | ⟨run, _, hfree, _, heq⟩ := start_cases h e c command
  · rw [heq]
    exact .same
  · rw [heq]
    exact .same
  · rw [heq]
    exact .start command run hfree

theorem change_launchOn {ps : Processes} (hps : e.processes = ps) (c : Channel)
    (command : BuildCommand) : ps.Change (e.launchOn h c command).1.processes none := by
  have hchange := change_start h e c command
  rw [hps] at hchange
  rw [launchOn]
  -- However the start came out, only messages follow it.
  split
  all_goals
    next heq =>
      rw [heq] at hchange
      exact hchange

theorem change_compileSingleFile (file : Path) (configuration : String) :
    e.processes.Change (e.compileSingleFile h file configuration).1.processes none := by
  rw [compileSingleFile]
  split
  · exact .same
  · dsimp only
    split
    · exact .same
    · refine change_launchOn h _ ?_ .singleFile _
      rfl

theorem change_buildSelection (names : List String) (configuration : String) (clean : Bool) :
    e.processes.Change (e.buildSelection h names configuration clean).1.processes none := by
  rw [buildSelection]
  split
  · exact .same
  · dsimp only
    split
    · exact .same
    · split
      · exact .same
      · split
        · exact .same
        · refine change_launchOn h _ ?_ .selection _
          rfl

/-- How a request for debugging comes out before it waits: the engine then, and the answer or what
is left to be done. -/
inductive DebugBegun (h : Host) (e : Engine) (project configuration : String) (f : FollowUp) :
    Engine × (Outcome ⊕ Completion) → Prop
  /-- The channel has a live process. -/
  | busy (live : e.processes.isLive .startup = true) :
    DebugBegun h e project configuration f (e, .inl (.busy .startup))
  /-- There is no command to start. -/
  | unprepared {e' : Engine} {reason : EngineError}
      (prepared : h.manifest.startupCommand e.files project configuration = .error reason)
      (processes : e'.processes = e.processes) (files : e'.files = e.files)
      (fired : e'.fired = e.fired) (lifecycle : e'.lifecycle = e.lifecycle)
      (free : e.processes.isLive .startup = false)
      (output : ∃ told, e'.output = e.output ++ told ++ reason.report) :
    DebugBegun h e project configuration f (e', .inl (.fallback reason))
  /-- The command cannot be started, and the build that has begun ends as a failure. -/
  | unlaunched {e' : Engine} {info : ProjectInfo} {command : BuildCommand} {cause : OsError}
      (prepared : h.manifest.startupCommand e.files project configuration = .ok (info, command))
      (launched : h.launch e.files command = .error cause)
      (processes : e'.processes = e.processes) (files : e'.files = e.files)
      (fired : e'.fired = e.fired)
      (lifecycle : e'.lifecycle = { phase := .idle, pending := none, success := false })
      (free : e.processes.isLive .startup = false)
      (output : ∃ told, e'.output =
        e.output ++ told ++ (EngineError.process (.launch command.program cause)).report) :
    DebugBegun h e project configuration f
      (e', .inl (.fallback (.process (.launch command.program cause))))
  /-- The build has begun with its follow-up pending, and its process is waited for. -/
  | waits {e' : Engine} {info : ProjectInfo} {command : BuildCommand} {run : ProcessRun}
      (free : e.processes.isLive .startup = false)
      (prepared : h.manifest.startupCommand e.files project configuration = .ok (info, command))
      (launched : h.launch e.files command = .ok (run, e'.files))
      (processes : e'.processes = e.processes ++ [{ channel := .startup, command, run }])
      (fired : e'.fired = e.fired)
      (lifecycle : e'.lifecycle = { phase := .running, pending := some f, success := true }) :
    DebugBegun h e project configuration f
      (e', .inr { unit := info.name, process := e.processes.length })

theorem debugBegun (project configuration : String) (f : FollowUp) :
    DebugBegun h e project configuration f (e.debugStartup h project configuration f) := by
  rw [debugStartup]
  cases hrunning : e.isRunning .startup with
  | true => exact .busy hrunning
  | false =>
    rw [if_neg Bool.false_ne_true]
    dsimp only
    split
    · next reason hprepared =>
      exact .unprepared hprepared rfl rfl rfl rfl hrunning
        ⟨_, output_fallBack (e.tell [.clear, .activate]) reason⟩
    · next info command hprepared =>
      -- The build has begun, with its follow-up pending, when the process is started.
      generalize hbegun : (((e.tell [.clear, .activate]).signal .begin).1.requestFollowUp f).say
        ("Building " ++ info.name ++ " before debugging") = begun
      have hprocesses : begun.processes = e.processes := by rw [← hbegun]; rfl
      have hfiles : begun.files = e.files := by rw [← hbegun]; rfl
      have hfired : begun.fired = e.fired := by rw [← hbegun]; rfl
      have hlifecycle : begun.lifecycle =
          { phase := .running, pending := some f, success := true } := by rw [← hbegun]; rfl
      have houtput : ∃ told, begun.output = e.output ++ told := by
        rw [← hbegun]
        exact ⟨[.clear, .activate, .writeLine ("Building " ++ info.name ++ " before debugging")],
          List.append_assoc ..⟩
      obtain ⟨hlive, _⟩ | ⟨cause, _, hlaunched, heq⟩ | ⟨run, files, _, hlaunched, heq⟩ :=
        start_cases h begun .startup command
      -- Nobody has started a process on the channel since it was looked at.
      · rw [hprocesses] at hlive
        cases hlive.symm.trans hrunning
      · have hend : ((begun.signal (.unitDone info.name false)).1.signal .done).1 =
            { begun with lifecycle := { phase := .idle, pending := none, success := false } } := by
          simp [signal, Lifecycle.handle, hlifecycle]
        rw [heq]
        dsimp only
        rw [hend]
        rw [hfiles] at hlaunched
        refine .unlaunched hprepared hlaunched hprocesses hfiles hfired rfl hrunning ?_
        rw [output_fallBack]
        exact houtput.imp fun told htold => congrArg (· ++ _) htold
      · rw [heq, hprocesses]
        rw [hfiles] at hlaunched
        exact .waits hrunning hprepared hlaunched rfl hfired hlifecycle

/-- A request for debugging ends at once, with nothing pending that was not pending before, or it
has begun a build of its own and waits for the process that it has started. -/
theorem debugStartup_cases (project configuration : String) (f : FollowUp) :
    (∃ e' outcome, e.debugStartup h project configuration f = (e', .inl outcome) ∧
        (∀ state fired, outcome ≠ .completed state fired) ∧
        e'.processes = e.processes ∧ e'.fired = e.fired ∧
        (e'.lifecycle = e.lifecycle ∨
          e'.lifecycle = { phase := .idle, pending := none, success := false })) ∨
      ∃ e' unit command run,
        e.debugStartup h project configuration f =
          (e', .inr { unit, process := e.processes.length }) ∧
        e.processes.isLive .startup = false ∧
        e'.processes = e.processes ++ [{ channel := .startup, command, run }] ∧
        e'.fired = e.fired ∧
        e'.lifecycle = { phase := .running, pending := some f, success := true } := by
  have hbegun := debugBegun h e project configuration f
  generalize e.debugStartup h project configuration f = result at hbegun
  cases hbegun with
  | busy => exact .inl ⟨e, _, rfl, nofun, rfl, rfl, .inl rfl⟩
  | unprepared _ processes _ fired lifecycle =>
    exact .inl ⟨_, _, rfl, nofun, processes, fired, .inl lifecycle⟩
  | unlaunched _ _ processes _ fired lifecycle =>
    exact .inl ⟨_, _, rfl, nofun, processes, fired, .inr lifecycle⟩
  | waits free _ _ processes fired lifecycle =>
    exact .inr ⟨_, _, _, _, rfl, free, processes, fired, lifecycle⟩

theorem change_debugStartup (project configuration : String) (f : FollowUp) :
    e.processes.Change (e.debugStartup h project configuration f).1.processes none := by
  obtain ⟨e', _, heq, _, hprocesses, _⟩ | ⟨e', _, command, run, heq, hfree, hprocesses, _⟩ :=
    debugStartup_cases h e project configuration f
  · rw [heq, hprocesses]
    exact .same
  · rw [heq, hprocesses]
    exact .start command run hfree

end Engine

namespace Session

/-! ## Calls of a session -/

variable (h : Host) (s : Session)

@[simp] theorem processes_hostBegun : s.hostBegun.engine.processes = s.engine.processes := by
  rw [hostBegun]
  split
  · exact Engine.processes_signal s.engine .begin
  · exact Engine.processes_signal s.engine .begin

/-- A call that sweeps the channels ends when there is no process left to end, and otherwise waits
for the process that it has asked to end. -/
theorem afterSweep_cases (killed : Nat) (cs : List Channel) (wait : Processes.Sweep → Task)
    (finish : Session → Nat → Session × Answer) :
    s.afterSweep (s.engine.processes.sweep killed cs) wait finish =
          ((finish s killed).1, .inl (finish s killed).2) ∧
        s.engine.processes.NoneKillable cs ∨
      ∃ passed c p i rest, cs = passed ++ c :: rest ∧ s.engine.processes.NoneKillable passed ∧
        s.engine.processes.Killable c p i ∧
        s.afterSweep (s.engine.processes.sweep killed cs) wait finish =
          ({ s with
              engine.processes :=
                s.engine.processes.supervise i fun p => { p with killRequested := true } },
            .inr (wait { process := i, rest, killed })) := by
  obtain ⟨heq, hnone⟩ | ⟨passed, c, p, i, rest, hcs, hpassed, hkillable, heq⟩ :=
    Processes.sweep_cases s.engine.processes killed cs
  · rw [heq]
    exact .inl ⟨rfl, hnone⟩
  · rw [heq]
    exact .inr ⟨passed, c, p, i, rest, hcs, hpassed, hkillable, rfl⟩

theorem change_afterSweep (killed : Nat) (cs : List Channel) {wait : Processes.Sweep → Task}
    {finish : Session → Nat → Session × Answer}
    (hwait : ∀ sweep, (wait sweep).asked? = some sweep.process)
    (hfinish : ∀ s killed, (finish s killed).1.engine.processes = s.engine.processes) :
    s.engine.processes.Change
      (s.afterSweep (s.engine.processes.sweep killed cs) wait finish).1.engine.processes
      (Progress.asked? (s.afterSweep (s.engine.processes.sweep killed cs) wait finish).2) := by
  obtain ⟨heq, _⟩ | ⟨_, c, p, i, rest, _, _, hkillable, heq⟩ :=
    afterSweep_cases s killed cs wait finish
  · rw [heq, hfinish]
    exact .same
  · rw [heq, Progress.asked?, hwait]
    exact .kill hkillable

/-- A call that kills ends at once when there is no process to end, and otherwise waits for the
process that it has asked to end. -/
theorem begin_kill_cases (c : Channel) :
    s.begin h (.kill c) = (s, .inl (.flag false)) ∧
        (∀ p i, ¬ s.engine.processes.Killable c p i) ∨
      ∃ p i, s.engine.processes.Killable c p i ∧
        s.begin h (.kill c) =
          ({ s with
              engine.processes :=
                s.engine.processes.supervise i fun p => { p with killRequested := true } },
            .inr (.kill i)) := by
  obtain ⟨heq, hnone⟩ | ⟨p, i, hkillable, heq⟩ :=
    Processes.requestKill_cases s.engine.processes c
  · rw [begin, heq]
    exact .inl ⟨rfl, hnone⟩
  · rw [begin, heq]
    exact .inr ⟨p, i, hkillable, rfl⟩

theorem processes_cancelledAll (s : Session) (killed : Nat) :
    (s.cancelledAll killed).1.engine.processes = s.engine.processes :=
  Engine.processes_finishCancel s.engine killed

theorem processes_begunAfterKills (s : Session) (killed : Nat) :
    (s.begunAfterKills killed).1.engine.processes = s.engine.processes :=
  processes_hostBegun s

theorem change_runCommand (request : CommandRequest) :
    s.engine.processes.Change (s.runCommand h request).1.engine.processes none := by
  cases request with
  | compile file configuration => exact Engine.change_compileSingleFile h s.engine _ _
  | build projects configuration clean => exact Engine.change_buildSelection h s.engine _ _ _
  | debug project configuration f => exact Engine.change_debugStartup h s.engine _ _ f

/-- A call that sweeps the channels waits as a sweep. -/
theorem afterSweep_eq_inr {killed : Nat} {cs : List Channel} {wait : Processes.Sweep → Task}
    {finish : Session → Nat → Session × Answer} {task : Task}
    (htask : (s.afterSweep (s.engine.processes.sweep killed cs) wait finish).2 = .inr task) :
    ∃ sweep, task = wait sweep := by
  obtain ⟨heq, _⟩ | ⟨_, _, _, _, _, _, _, _, heq⟩ := afterSweep_cases s killed cs wait finish
  · rw [heq] at htask
    cases htask
  · rw [heq] at htask
    cases htask
    exact ⟨_, rfl⟩

/-- A command that runs in place of the host's asks for no process to end. -/
theorem asked?_runCommand (request : CommandRequest) :
    Progress.asked? (s.runCommand h request).2 = none := by
  cases request with
  | compile file configuration => rfl
  | build projects configuration clean => rfl
  | debug project configuration f =>
    rw [runCommand]
    dsimp only
    split <;> rfl

/-- A command that the host asks about is carried out at once: the host does not build, and there is
no process to stop, or the user would stop it but somebody else has asked for its end. -/
structure Admits (s : Session) (confirm : Bool) (request : CommandRequest) : Prop where
  idle : s.hostBuildRunning = false
  unhindered : s.engine.isRunning request.channel = true →
    confirm = true ∧ ∀ p i, ¬ s.engine.processes.Killable request.channel p i

/-- What becomes of a command that the host asks about: it is refused because the host builds, or
because the user does not want the running build to be stopped; it waits until that build has been
stopped; or it runs in place of the host's. -/
theorem intercept_cases (confirm : Bool) (request : CommandRequest) :
    (s.hostBuildRunning = true ∧
        s.intercept h confirm request =
          ({ s with engine := s.engine.say "A build is already in progress." },
            .inl (.decision .cancelDefault))) ∨
      (s.hostBuildRunning = false ∧ s.engine.isRunning request.channel = true ∧ confirm = false ∧
        s.intercept h confirm request =
          ({ s with asked := s.asked ++ [stopQuestion] }, .inl (.decision .cancelDefault))) ∨
      (∃ p i, s.hostBuildRunning = false ∧ confirm = true ∧
        s.engine.processes.Killable request.channel p i ∧
        s.intercept h confirm request =
          ({ s with
              asked := s.asked ++ [stopQuestion]
              engine.processes :=
                s.engine.processes.supervise i fun p => { p with killRequested := true } },
            .inr (.interceptKill i request))) ∨
      ∃ asked, s.Admits confirm request ∧
        s.intercept h confirm request = { s with asked }.runCommand h request := by
  rw [intercept]
  split
  · next hhost => exact .inl ⟨hhost, rfl⟩
  · next hhost =>
    rw [Bool.not_eq_true] at hhost
    refine .inr ?_
    split
    · next hlive =>
      dsimp only
      split
      · next hconfirm =>
        obtain ⟨heq, hnone⟩ | ⟨p, i, hkillable, heq⟩ :=
          Processes.requestKill_cases s.engine.processes request.channel
        -- Somebody else has asked for the end of the build, so nothing is waited for.
        · rw [heq]
          exact .inr (.inr ⟨s.asked ++ [stopQuestion], ⟨hhost, fun _ => ⟨hconfirm, hnone⟩⟩, rfl⟩)
        · rw [heq]
          exact .inr (.inl ⟨p, i, hhost, hconfirm, hkillable, rfl⟩)
      · next hconfirm =>
        exact .inl ⟨hhost, hlive, Bool.not_eq_true _ ▸ hconfirm, rfl⟩
    · next hfree =>
      exact .inr (.inr ⟨s.asked, ⟨hhost, fun hlive => absurd hlive hfree⟩, rfl⟩)

theorem change_intercept (confirm : Bool) (request : CommandRequest) :
    s.engine.processes.Change (s.intercept h confirm request).1.engine.processes
      (Progress.asked? (s.intercept h confirm request).2) := by
  obtain ⟨_, heq⟩ | ⟨_, _, _, heq⟩ | ⟨p, i, _, _, hkillable, heq⟩ | ⟨asked, _, heq⟩ :=
    intercept_cases h s confirm request
  · rw [heq]
    exact .same
  · rw [heq]
    exact .same
  · rw [heq]
    exact .kill hkillable
  · rw [heq, asked?_runCommand]
    exact change_runCommand h { s with asked } request

/-- What a call does to the processes before it ends or waits. -/
theorem change_begin (c : Call) :
    s.engine.processes.Change (s.begin h c).1.engine.processes
      (Progress.asked? (s.begin h c).2) := by
  cases c with
  | compile file configuration => exact Engine.change_compileSingleFile h s.engine _ _
  | build projects configuration clean => exact Engine.change_buildSelection h s.engine _ _ _
  | debug project configuration f =>
    have hchange := Engine.change_debugStartup h s.engine project configuration f
    rw [begin]
    dsimp only
    split <;> exact hchange
  | start channel command =>
    have hchange := Engine.change_start h s.engine channel command
    rw [begin]
    dsimp only
    split <;> exact hchange
  | runUnit unit channel command =>
    have hchange := Engine.change_start h s.engine channel command
    rw [begin]
    dsimp only
    split <;> exact hchange
  | kill channel =>
    obtain ⟨heq, _⟩ | ⟨p, i, hkillable, heq⟩ := begin_kill_cases h s channel
    · rw [heq]
      exact .same
    · rw [heq]
      exact .kill hkillable
  | killAll => exact change_afterSweep s 0 Channel.all (fun _ => rfl) fun _ _ => rfl
  | cancelAll =>
    exact change_afterSweep s 0 Channel.all (fun _ => rfl) processes_cancelledAll
  | signal signal =>
    rw [begin, Session.signal, Engine.processes_signal]
    exact .same
  | requestFollowUp f => exact .same
  | deferFollowUp f => exact .same
  | buildBegin =>
    exact change_afterSweep { s with hostBuildRunning := true } 0 Channel.all (fun _ => rfl)
      processes_begunAfterKills
  | unitDone unit success =>
    rw [begin, unitDone, Session.signal, Engine.processes_signal]
    exact .same
  | buildDone =>
    rw [begin, buildDone, Session.signal, Engine.processes_signal]
    exact .same
  | cancelRequested =>
    rw [begin, cancelRequested, Session.signal, Engine.processes_signal]
    exact .same
  | intercept mode confirm request =>
    cases mode with
    | preempt => exact change_intercept h s confirm request
    | listen => cases request <;> exact .same

/-- What a call does to the processes when it goes on. -/
theorem change_resume (task : Task) :
    s.engine.processes.Change (s.resume h task).1.engine.processes
      (Progress.asked? (s.resume h task).2) := by
  cases task with
  | kill process => exact .same
  | killAll sweep => exact change_afterSweep s _ sweep.rest (fun _ => rfl) fun _ _ => rfl
  | cancelAll sweep =>
    exact change_afterSweep s _ sweep.rest (fun _ => rfl) processes_cancelledAll
  | unitRun completion =>
    rw [resume, answered, Engine.processes_complete]
    exact .same
  | hostBegin sweep =>
    exact change_afterSweep s _ sweep.rest (fun _ => rfl) processes_begunAfterKills
  | interceptKill process request =>
    rw [resume, asked?_runCommand]
    exact change_runCommand h s request
  | interceptRun completion =>
    rw [resume, Engine.processes_complete]
    exact .same

end Session

namespace Interleaving

/-! ## Events -/

variable {h : Host} {x : Interleaving}

/-- An event changes the processes as a call does, or by one step of a supervisor. -/
theorem processes_next_cases (h : Host) (x : Interleaving) (e : Event) :
    (∃ asked, x.processes.Change (x.next h e).processes asked) ∨
      ∃ process step, e = .supervise process step ∧
        (x.next h e).processes = x.processes.supervise process step.apply := by
  cases e with
  | call c => exact .inl ⟨_, Session.change_begin h x.session c⟩
  | resume place =>
    obtain heq | ⟨task, _, _, heq⟩ := next_resume_cases h x place
    · rw [heq]
      exact .inl ⟨_, .same⟩
    · rw [heq]
      exact .inl ⟨_, Session.change_resume h x.session task⟩
  | supervise process step => exact .inr ⟨process, step, rfl, rfl⟩
  | forward line => exact .inl ⟨_, .same⟩

theorem keeps_next (h : Host) (x : Interleaving) (e : Event) :
    x.processes.Keeps (x.next h e).processes := by
  obtain ⟨_, hchange⟩ | ⟨process, step, _, heq⟩ := processes_next_cases h x e
  · exact hchange.keeps
  · rw [heq]
    exact Processes.keeps_supervise (BuildProcess.keeps_apply step) x.processes process

/-- Every process stays at its place during a run, and keeps what a process keeps. -/
theorem keeps_run (h : Host) (x : Interleaving) (events : List Event) :
    x.processes.Keeps (x.run h events).processes :=
  run_invariant (P := fun y => x.processes.Keeps y.processes)
    (fun y e _ hkeeps => hkeeps.trans (keeps_next h y e)) (.refl x.processes)

end Interleaving

end SoloBuild
