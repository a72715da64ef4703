import SoloBuild.Proofs.SingleFlight
import SoloBuild.Proofs.WrittenFiles

/-!
# The config of a live compile

Every compile of one file writes its config to the same path, and the process that it starts reads
it from there. A config that was written for another compile must therefore not take its place while
the process runs, whatever comes between: other requests, requests that fail once they have written,
processes that end and calls that wait. Requests write only while their channel is free, so it never
does.

## Key results

- `Manifest.readText_prepareCompile`: what a preparation leaves at the path of the config
- `Builds`, `builds_next`: what an event does to files and processes
- `config_of_live`: a live compile runs on the config that was prepared for it
-/

namespace SoloBuild

open SingleFile FileTree

namespace Manifest

variable {m : Manifest} {t : FileTree} {file : Path} {configuration : String}

/-! ## Preparations -/

/-- Where the transient config is written. -/
def configPath (m : Manifest) : Path :=
  transientPath { path := m.solution.descriptionPath, text := "" } m.settings

theorem Passes.transientPath_eq {plan : CompilePlan} (h : Passes m t file configuration plan) :
    transientPath plan.solution m.settings = m.configPath := by
  rw [configPath, transientPath, transientPath, h.solution_path]

/-- The directory that a preparation purges holds the config that it has written. -/
def purgesConfig (m : Manifest) (t : FileTree) (file : Path) (configuration : String) : Bool :=
  match m.planCompile t file configuration with
  | .error _ => false
  | .ok plan =>
    let content := compose plan.solution plan.target.name plan.target.text m.settings
    (intermediateDir? plan.target.text.toList plan.project.dir m.settings).any fun dir =>
      (written t m.configPath content).1.holds dir m.configPath

/-- A preparation keeps a tree consistent, whether or not it succeeds. -/
theorem consistent_prepareCompile (ht : t.Consistent) (m : Manifest) (file : Path)
    (configuration : String) : (m.prepareCompile t file configuration).1.Consistent := by
  rw [prepareCompile]
  split
  · exact ht
  · next plan _ =>
    refine consistent_purge ?_
    rw [written]
    split
    · next hwrite => exact ht.writeText hwrite
    · exact ht

/-- What a preparation has written is there when it is done, and its command names the path. -/
theorem readText_prepareCompile (ht : t.Consistent) {prepared : PreparedCompile}
    (hpurge : m.purgesConfig t file configuration = false)
    (h : (m.prepareCompile t file configuration).2 = .ok prepared) :
    (m.prepareCompile t file configuration).1.readText m.configPath =
        .ok prepared.config.content ∧
      prepared.config.path = m.configPath ∧
      prepared.command.args.getLast? = some m.configPath.text := by
  obtain ⟨plan, after, hpasses, hwrite, hfiles, rfl⟩ :=
    exists_of_prepareCompile_eq_ok (eq_ok_of_toOption (by rw [h]; rfl))
  have hpath := hpasses.transientPath_eq
  rw [hpath] at hwrite
  rw [purgesConfig, hpasses.planCompile_eq] at hpurge
  rw [hfiles]
  -- The config is written before the purge, which leaves it.
  refine ⟨readText_purge (readText_of_writeText ht hwrite) fun dir hdir => ?_, hpath, ?_⟩
  · simpa only [hdir, Option.any_some, written, hwrite] using hpurge
  · rw [← hpath]
    rfl

end Manifest

/-! ## Requests -/

/-- What a request does to files and processes, when the compile that it may ask for is known. -/
inductive Builds (h : Host) (e : Engine) (asked : Option (Path × String)) (e' : Engine) : Prop
  /-- It leaves the files alone, and starts nothing. -/
  | kept (files : e'.files = e.files) (processes : e'.processes.length = e.processes.length)
  /-- It prepares a compile on a free channel, but starts nothing. -/
  | prepared {file : Path} {configuration : String}
      (free : e.processes.isLive .singleFile = false) (compile : asked = some (file, configuration))
      (files : e'.files = (h.manifest.prepareCompile e.files file configuration).1)
      (processes : e'.processes.length = e.processes.length)
  /-- It starts a process on another channel. -/
  | launched {c : Channel} {command : BuildCommand} {run : ProcessRun} (other : c ≠ .singleFile)
      (launch : h.launch e.files command = .ok (run, e'.files))
      (processes : e'.processes = e.processes ++ [{ channel := c, command, run }])
  /-- It starts a compile that it has prepared on a free channel. -/
  | compiled {file : Path} {configuration : String} {compile : PreparedCompile} {run : ProcessRun}
      (free : e.processes.isLive .singleFile = false)
      (asks : asked = some (file, configuration))
      (prepared : (h.manifest.prepareCompile e.files file configuration).2 = .ok compile)
      (launch : h.launch (h.manifest.prepareCompile e.files file configuration).1 compile.command =
        .ok (run, e'.files))
      (processes : e'.processes =
        e.processes ++ [{ channel := .singleFile, command := compile.command, run }])

namespace Engine

variable (h : Host) (e : Engine)

/-- Starting the process of a request starts it, or leaves files and processes alone. -/
theorem launchOn_cases (c : Channel) (command : BuildCommand) :
    ((e.launchOn h c command).1.files = e.files ∧
        (e.launchOn h c command).1.processes = e.processes) ∨
      ∃ run, h.launch e.files command = .ok (run, (e.launchOn h c command).1.files) ∧
        (e.launchOn h c command).1.processes = e.processes ++ [{ channel := c, command, run }] := by
  rw [launchOn]
  obtain ⟨_, heq⟩ | ⟨_, _, _, heq⟩ | ⟨run, files, _, hlaunch, heq⟩ := start_cases h e c command
  · rw [heq]
    exact .inl ⟨rfl, rfl⟩
  · rw [heq]
    exact .inl ⟨rfl, rfl⟩
  · rw [heq]
    exact .inr ⟨run, hlaunch, rfl⟩

theorem builds_compileSingleFile (file : Path) (configuration : String) :
    Builds h e (some (file, configuration)) (e.compileSingleFile h file configuration).1 := by
  rw [compileSingleFile]
  cases hfree : e.isRunning .singleFile with
  | true => exact .kept rfl rfl
  | false =>
    rw [if_neg Bool.false_ne_true]
    dsimp only
    split
    · exact .prepared hfree rfl rfl rfl
    · next compile hprepared =>
      -- A config that was written stays also when its process cannot be launched.
      obtain ⟨hfiles, hprocesses⟩ | ⟨run, hlaunch, hprocesses⟩ := launchOn_cases h _ _ _
      · exact .prepared hfree rfl hfiles (congrArg List.length hprocesses)
      · exact .compiled hfree rfl hprepared hlaunch hprocesses

theorem builds_buildSelection (names : List String) (configuration : String) (clean : Bool) :
    Builds h e none (e.buildSelection h names configuration clean).1 := by
  rw [buildSelection]
  split
  · exact .kept rfl rfl
  · dsimp only
    split
    · exact .kept rfl rfl
    · split
      · exact .kept rfl rfl
      · split
        · exact .kept rfl rfl
        · obtain ⟨hfiles, hprocesses⟩ | ⟨run, hlaunch, hprocesses⟩ := launchOn_cases h _ _ _
          · exact .kept hfiles (congrArg List.length hprocesses)
          · exact .launched (by decide) hlaunch hprocesses

theorem builds_debugStartup (project configuration : String) (f : FollowUp) :
    Builds h e none (e.debugStartup h project configuration f).1 := by
  have hbegun := debugBegun h e project configuration f
  generalize e.debugStartup h project configuration f = result at hbegun
  cases hbegun with
  | busy => exact .kept rfl rfl
  | unprepared _ processes files | unlaunched _ _ processes files =>
    exact .kept files (congrArg List.length processes)
  | waits _ _ launched processes => exact .launched (by decide) launched processes

theorem builds_start {c : Channel} (hc : c ≠ .singleFile) (command : BuildCommand) :
    Builds h e none (e.start h c command).1 := by
  obtain ⟨_, heq⟩ | ⟨_, _, _, heq⟩ | ⟨run, files, _, hlaunch, heq⟩ := start_cases h e c command
  · rw [heq]
    exact .kept rfl rfl
  · rw [heq]
    exact .kept rfl rfl
  · rw [heq]
    exact .launched hc hlaunch rfl

end Engine

/-! ## Calls -/

/-- The compile that a command asks for. -/
def CommandRequest.compile? : CommandRequest → Option (Path × String)
  | .compile file configuration => some (file, configuration)
  | .build .. | .debug .. => none

/-- The compile that a call asks for. -/
def Call.compile? : Call → Option (Path × String)
  | .compile file configuration => some (file, configuration)
  | .intercept .preempt _ request => request.compile?
  | _ => none

/-- The compile that a task asks for when it goes on. -/
def Task.compile? : Task → Option (Path × String)
  | .interceptKill _ request => request.compile?
  | _ => none

/-- The channel on which a call starts a command of its own. -/
def Call.startsOn? : Call → Option Channel
  | .start c _ | .runUnit _ c _ => some c
  | _ => none

/-- Whatever is started leaves a consistent tree consistent, and leaves alone what is read at the
path of the config. -/
structure Host.LeavesConfig (h : Host) : Prop where
  consistent : ∀ {t after : FileTree} {command : BuildCommand} {run : ProcessRun},
    h.launch t command = .ok (run, after) → t.Consistent → after.Consistent
  config : ∀ {t after : FileTree} {command : BuildCommand} {run : ProcessRun},
    h.launch t command = .ok (run, after) →
      after.readText h.manifest.configPath = t.readText h.manifest.configPath

namespace Session

variable (h : Host) (s : Session)

@[simp] theorem files_hostBegun : s.hostBegun.engine.files = s.engine.files := by
  rw [hostBegun]
  split
  · exact Engine.files_signal s.engine .begin
  · exact Engine.files_signal s.engine .begin

theorem builds_runCommand (request : CommandRequest) :
    Builds h s.engine request.compile? (s.runCommand h request).1.engine := by
  cases request with
  | compile file configuration => exact Engine.builds_compileSingleFile h s.engine _ _
  | build projects configuration clean => exact Engine.builds_buildSelection h s.engine _ _ _
  | debug project configuration f => exact Engine.builds_debugStartup h s.engine _ _ f

theorem builds_afterSweep (asked : Option (Path × String)) (killed : Nat) (cs : List Channel)
    {wait : Processes.Sweep → Task} {finish : Session → Nat → Session × Answer}
    (hfiles : ∀ s killed, (finish s killed).1.engine.files = s.engine.files)
    (hprocesses : ∀ s killed, (finish s killed).1.engine.processes = s.engine.processes) :
    Builds h s.engine asked
      (s.afterSweep (s.engine.processes.sweep killed cs) wait finish).1.engine := by
  obtain ⟨heq, _⟩ | ⟨_, _, _, _, _, _, _, _, heq⟩ := afterSweep_cases s killed cs wait finish
  · rw [heq]
    exact .kept (hfiles s killed) (congrArg List.length (hprocesses s killed))
  · rw [heq]
    exact .kept rfl (Processes.length_supervise ..)

theorem files_finish (killed : Nat) :
    (s.cancelledAll killed).1.engine.files = s.engine.files ∧
      (s.begunAfterKills killed).1.engine.files = s.engine.files :=
  ⟨Engine.files_finishCancel s.engine killed, files_hostBegun s⟩

theorem builds_intercept (confirm : Bool) (request : CommandRequest) :
    Builds h s.engine request.compile? (s.intercept h confirm request).1.engine := by
  obtain ⟨_, heq⟩ | ⟨_, _, _, heq⟩ | ⟨_, _, _, _, _, heq⟩ | ⟨asked, _, heq⟩ :=
    intercept_cases h s confirm request
  · rw [heq]
    exact .kept rfl rfl
  · rw [heq]
    exact .kept rfl rfl
  · rw [heq]
    exact .kept rfl (Processes.length_supervise ..)
  · rw [heq]
    exact builds_runCommand h { s with asked } request

theorem builds_signal (asked : Option (Path × String)) (signal : BuildSignal) :
    Builds h s.engine asked (s.engine.signal signal).1 :=
  .kept (Engine.files_signal ..) (congrArg List.length (Engine.processes_signal ..))

/-- What a call does to files and processes, when it starts no command of its own on the channel of
compiles. -/
theorem builds_begin {c : Call} (hc : c.startsOn? ≠ some .singleFile) :
    Builds h s.engine c.compile? (s.begin h c).1.engine := by
  cases c with
  | compile file configuration => exact Engine.builds_compileSingleFile h s.engine _ _
  | build projects configuration clean => exact Engine.builds_buildSelection h s.engine _ _ _
  | debug project configuration f => exact Engine.builds_debugStartup h s.engine _ _ f
  | start channel command | runUnit unit channel command =>
    exact Engine.builds_start h s.engine (fun heq => hc (congrArg some heq)) command
  | kill channel =>
    obtain ⟨heq, _⟩ | ⟨_, _, _, heq⟩ := begin_kill_cases h s channel
    · rw [heq]
      exact .kept rfl rfl
    · rw [heq]
      exact .kept rfl (Processes.length_supervise ..)
  | killAll => exact builds_afterSweep h s _ 0 Channel.all (fun _ _ => rfl) fun _ _ => rfl
  | cancelAll =>
    exact builds_afterSweep h s _ 0 Channel.all (fun s k => (s.files_finish k).1)
      processes_cancelledAll
  | buildBegin =>
    exact builds_afterSweep h { s with hostBuildRunning := true } _ 0 Channel.all
      (fun s k => (s.files_finish k).2) processes_begunAfterKills
  | signal signal => exact builds_signal h s _ signal
  | unitDone unit success => exact builds_signal h s _ (.unitDone unit success)
  | buildDone => exact builds_signal h s _ .done
  | cancelRequested => exact builds_signal h s _ .cancelRequested
  | requestFollowUp | deferFollowUp => exact .kept rfl rfl
  | intercept mode confirm request =>
    cases mode with
    | preempt => exact builds_intercept h s confirm request
    | listen => cases request <;> exact .kept rfl rfl

/-- What a call does to files and processes when it goes on. -/
theorem builds_resume (task : Task) :
    Builds h s.engine task.compile? (s.resume h task).1.engine := by
  cases task with
  | kill process => exact .kept rfl rfl
  | killAll sweep => exact builds_afterSweep h s _ _ sweep.rest (fun _ _ => rfl) fun _ _ => rfl
  | cancelAll sweep =>
    exact builds_afterSweep h s _ _ sweep.rest (fun s k => (s.files_finish k).1)
      processes_cancelledAll
  | hostBegin sweep =>
    exact builds_afterSweep h s _ _ sweep.rest (fun s k => (s.files_finish k).2)
      processes_begunAfterKills
  | unitRun completion | interceptRun completion =>
    exact .kept (Engine.files_complete ..) (congrArg List.length (Engine.processes_complete ..))
  | interceptKill process request => exact builds_runCommand h s request

end Session

namespace Interleaving

variable {h : Host} {x : Interleaving} {e : Event} {i : Nat} {p : BuildProcess}

/-! ## Events -/

/-- The compile that an event asks for. -/
def compile? (x : Interleaving) : Event → Option (Path × String)
  | .call c => c.compile?
  | .resume place =>
    match x.calls[place]? with
    | some (.inr task) => task.compile?
    | _ => none
  | .supervise .. | .forward _ => none

/-- What an event does to files and processes, when it starts no command of its own on the channel
of compiles. -/
theorem builds_next (he : ∀ c, e = .call c → c.startsOn? ≠ some .singleFile) :
    Builds h x.session.engine (x.compile? e) (x.next h e).session.engine := by
  cases e with
  | call c => exact Session.builds_begin h x.session (he c rfl)
  | resume place =>
    obtain heq | ⟨task, htask, _, heq⟩ := next_resume_cases h x place
    · rw [heq]
      exact .kept rfl rfl
    · rw [heq, compile?, htask]
      exact Session.builds_resume h x.session task
  | supervise process step => exact .kept rfl (Processes.length_supervise ..)
  | forward line => exact .kept rfl rfl

/-- The directory that is purged by the compile of an event holds the config. -/
def purgesConfig (h : Host) (x : Interleaving) (e : Event) : Bool :=
  !x.processes.isLive .singleFile && (x.compile? e).any fun (file, configuration) =>
    h.manifest.purgesConfig x.session.engine.files file configuration

/-- In this event the process at a place is started by a compile that was prepared. -/
def CompileStarts (h : Host) (i : Nat) (compile : PreparedCompile) (x : Interleaving) (e : Event) :
    Prop :=
  x.processes.length = i ∧ (x.next h e).processes.length = i + 1 ∧
    ∃ file configuration, x.compile? e = some (file, configuration) ∧
      (h.manifest.prepareCompile x.session.engine.files file configuration).2 = .ok compile

theorem consistent_next (hh : h.LeavesConfig) (hx : x.session.engine.files.Consistent)
    (he : ∀ c, e = .call c → c.startsOn? ≠ some .singleFile) :
    (x.next h e).session.engine.files.Consistent := by
  cases builds_next (h := h) (x := x) he with
  | kept files =>
    rw [files]
    exact hx
  | prepared _ _ files =>
    rw [files]
    exact Manifest.consistent_prepareCompile hx _ _ _
  | launched _ launch => exact hh.consistent launch hx
  | compiled _ _ _ launch =>
    exact hh.consistent launch (Manifest.consistent_prepareCompile hx _ _ _)

/-! ## Live compiles -/

/-- A process runs a compile on the config that was prepared for it: its command ends with the path
of the config, and what is read there is the content that was prepared. -/
structure RunsOn (h : Host) (x : Interleaving) (p : BuildProcess) (compile : PreparedCompile) :
    Prop where
  command : p.command = compile.command
  argument : p.command.args.getLast? = some h.manifest.configPath.text
  path : compile.config.path = h.manifest.configPath
  content :
    x.session.engine.files.readText h.manifest.configPath = .ok compile.config.content

/-- As long as a compile is live nobody writes a config. -/
theorem RunsOn.next {q : BuildProcess} {compile : PreparedCompile} (hruns : RunsOn h x q compile)
    (hh : h.LeavesConfig) (he : ∀ c, e = .call c → c.startsOn? ≠ some .singleFile)
    (hlive : x.processes.isLive .singleFile = true) (hkeeps : q.Keeps p) :
    RunsOn h (x.next h e) p compile := by
  have hcontent : (x.next h e).session.engine.files.readText h.manifest.configPath =
      x.session.engine.files.readText h.manifest.configPath := by
    cases builds_next (h := h) (x := x) he with
    | kept files => rw [files]
    | launched _ launch => exact hh.config launch
    -- A preparation would have found the channel taken.
    | prepared free | compiled free => cases hlive.symm.trans free
  refine ⟨hkeeps.command.trans hruns.command, ?_, hruns.path, hcontent.trans hruns.content⟩
  rw [hkeeps.command]
  exact hruns.argument

/-- A process that is started on the channel of compiles runs the compile that started it. -/
theorem runsOn_of_started (hh : h.LeavesConfig) (hx : x.session.engine.files.Consistent)
    (he : ∀ c, e = .call c → c.startsOn? ≠ some .singleFile)
    (hpurge : purgesConfig h x e = false) (hi : x.processes.length ≤ i)
    (hp : (x.next h e).processes[i]? = some p) (hchannel : p.channel = .singleFile) :
    ∃ compile, CompileStarts h i compile x e ∧ RunsOn h (x.next h e) p compile := by
  -- Only the process that was started just now comes after those of before.
  have hnew : ∀ {q : BuildProcess}, (x.next h e).processes = x.processes ++ [q] →
      i = x.processes.length ∧ p = q := by
    intro q hprocesses
    rw [hprocesses] at hp
    obtain hold | hlast := Processes.getElem?_concat_cases hp
    · exact absurd (List.getElem?_eq_some_iff.1 hold).1 (Nat.not_lt.2 hi)
    · exact hlast
  cases builds_next (h := h) (x := x) he with
  | kept _ processes | prepared _ _ _ processes =>
    exact absurd (List.getElem?_eq_some_iff.1 hp).1
      (Nat.not_lt.2 (Nat.le_trans (Nat.le_of_eq processes) hi))
  | launched other _ processes =>
    obtain ⟨_, rfl⟩ := hnew processes
    exact absurd hchannel other
  | @compiled file configuration compile run free asks prepared launch processes =>
    obtain ⟨hlast, rfl⟩ := hnew processes
    -- The channel was free, so the compile of this event is one that was not to purge the config.
    have hheld : h.manifest.purgesConfig x.session.engine.files file configuration = false := by
      rw [purgesConfig, show x.processes.isLive .singleFile = false from free, asks] at hpurge
      exact hpurge
    obtain ⟨hread, hpath, hargument⟩ := Manifest.readText_prepareCompile hx hheld prepared
    refine ⟨compile, ⟨hlast.symm, ?_, file, configuration, asks, prepared⟩, rfl, hargument, hpath,
      (hh.config launch).trans hread⟩
    rw [hlast]
    exact (congrArg List.length processes).trans List.length_append

theorem consistent_run (hh : h.LeavesConfig) {files : FileTree} (hfiles : files.Consistent)
    {events : List Event} (hcalls : ∀ c ∈ madeCalls events, c.startsOn? ≠ some .singleFile) :
    (run h (fresh files) events).session.engine.files.Consistent :=
  run_invariant (P := fun y => y.session.engine.files.Consistent)
    (fun _ _ he hy => consistent_next hh hy fun c hc => hcalls c (mem_madeCalls.2 (hc ▸ he))) hfiles

/-- Whenever a process is live on the channel of compiles, a compile has started it, its command
ends with the path of the config, and what is read there is what was prepared for that compile:
whatever was asked for and has ended meanwhile, as long as nobody else starts commands on the
channel, writes the config, or has it purged. -/
theorem config_of_live (hh : h.LeavesConfig) {files : FileTree} (hfiles : files.Consistent)
    {events : List Event} (hcalls : ∀ c ∈ madeCalls events, c.startsOn? ≠ some .singleFile)
    (hpurge : ¬ Occurs h (fun y e => purgesConfig h y e = true) (fresh files) events)
    (hp : (run h (fresh files) events).processes[i]? = some p) (hchannel : p.channel = .singleFile)
    (hlive : p.isLive = true) :
    ∃ compile, Occurs h (CompileStarts h i compile) (fresh files) events ∧
      RunsOn h (run h (fresh files) events) p compile := by
  induction events using List.reverseRecOn generalizing p with
  | nil => cases hp
  | append_singleton events e ih =>
    have hbefore : ∀ c ∈ madeCalls events, c.startsOn? ≠ some .singleFile := fun c hc =>
      hcalls c (madeCalls_append events [e] ▸ List.mem_append_left _ hc)
    have he : ∀ c, e = .call c → c.startsOn? ≠ some .singleFile := fun c hc =>
      hcalls c (mem_madeCalls.2 (hc ▸ List.mem_append_right _ List.mem_cons_self))
    rw [occurs_concat, not_or] at hpurge
    rw [run_concat] at hp
    simp only [occurs_concat, run_concat]
    by_cases hi : i < (run h (fresh files) events).processes.length
    -- The process was there before, and was live.
    · obtain ⟨q, hq⟩ : ∃ q, (run h (fresh files) events).processes[i]? = some q :=
        ⟨_, List.getElem?_eq_getElem hi⟩
      obtain ⟨p', hp', hkeeps⟩ := keeps_next h _ e i q hq
      cases hp.symm.trans hp'
      have hqchannel : q.channel = .singleFile := hkeeps.channel.symm.trans hchannel
      obtain ⟨compile, hstarts, hruns⟩ :=
        ih hbefore hpurge.1 hq hqchannel (hkeeps.isLive hlive)
      have hlatest := latestLive_run (h := h) (x := fresh files) (fun _ _ hp => by cases hp) events
      refine ⟨compile, .inl hstarts, hruns.next hh he ?_ hkeeps⟩
      exact hlatest.isLive_iff.2
        ⟨q, List.mem_of_getElem? hq, hqchannel, hkeeps.isLive hlive⟩
    · obtain ⟨compile, hstarts, hruns⟩ :=
        runsOn_of_started hh (consistent_run hh hfiles hbefore) he
          (eq_false_of_ne_true hpurge.2) (Nat.not_lt.1 hi) hp hchannel
      exact ⟨compile, .inr hstarts, hruns⟩

/-- A compile that is live runs on its own config when another one has been refused. -/
theorem config_of_live_sample :
    let host : Host :=
      { manifest := Manifest.smallSolution "Game", launch := fun files _ => .ok ({}, files) }
    let events : List Event :=
      [.call (.compile ⟨"/s/a.cpp"⟩ "Debug"), .call (.compile ⟨"/s/a.cpp"⟩ "Debug")]
    let x := run host (fresh (Manifest.smallTree "Game")) events
    ∃ p, x.processes[0]? = some p ∧ p.channel = .singleFile ∧ p.isLive = true ∧
      x.calls[1]? = some (.inl (.outcome (.busy .singleFile))) ∧
      ∃ compile, Occurs host (CompileStarts host 0 compile)
        (fresh (Manifest.smallTree "Game")) events ∧ RunsOn host x p compile := by
  intro host events x
  have hh : host.LeavesConfig := by
    constructor <;>
    · intro t after command run hlaunch
      cases hlaunch
      first | exact id | rfl
  have hfiles : (Manifest.smallTree "Game").Consistent :=
    .of_nodes (by decide +kernel) (by decide +kernel)
  have hcalls : ∀ c ∈ madeCalls events, c.startsOn? ≠ some .singleFile := by decide
  have hpurge : ¬ Occurs host (fun y e => purgesConfig host y e = true)
      (fresh (Manifest.smallTree "Game")) events := by decide +kernel
  obtain ⟨p, hp, hchannel, hlive, hrefused⟩ :
      ∃ p, x.processes[0]? = some p ∧ p.channel = .singleFile ∧ p.isLive = true ∧
        x.calls[1]? = some (.inl (.outcome (.busy .singleFile))) := by
    decide +kernel
  exact ⟨p, hp, hchannel, hlive, hrefused,
    config_of_live hh hfiles hcalls hpurge hp hchannel hlive⟩

end Interleaving

end SoloBuild
