import SoloBuild.Console.Command
import SoloBuild.Proofs.DebugOutcome

/-!
# When the debugger is started

The debugging command builds a project and starts its debugger when the build succeeds. There are
two builds: the one that the engine runs, whose success runs a follow-up, and the build command of
the project itself, which is run when the engine falls back. This module says what one run of the
command gives to the shell, for every way in which the builds and the debugger can end.

## Key results

- `Stage.endProcess_only`: the only process of a session ends by itself
- `Stage.debugPerformed`: a request for debugging ends as the external build does
- `Console.Run.debug_commands`: what is given to the shell, and when the command succeeds
- `Console.runInvocation_debug`: the debugger is started once, and only after a success
-/

namespace SoloBuild

/-! ## The builds before debugging -/

namespace Host

variable (h : Host) (files : FileTree)

/-- The files that a command leaves, if it can be started and exits with code zero. -/
def filesAfter? (command : BuildCommand) : Option FileTree :=
  match h.launch files command with
  | .error _ => none
  | .ok (run, after) => if run.code = some 0 then some after else none

/-- The external build of a project: what its process does and the files that it leaves, or why
the engine falls back. -/
def externalBuild (name configuration : String) : Except EngineError (ProcessRun × FileTree) :=
  match h.manifest.startupCommand files name configuration with
  | .error reason => .error reason
  | .ok (_, command) =>
    (h.launch files command).mapError fun cause => .process (.launch command.program cause)

/-- The files that the build before debugging leaves, if it succeeds: the external build, or the
project's own build command when the engine falls back. -/
def filesBuilt? (name configuration : String) (project : ProjectInfo) : Option FileTree :=
  match h.externalBuild files name configuration with
  | .error _ => h.filesAfter? files (Shell.shellCommand project.buildCommand project.dir)
  | .ok (run, after) => if run.code = some 0 then some after else none

/-- What the build before debugging gives to the shell: the project's own build command, when the
engine falls back. -/
def buildCommands (name configuration : String) (project : ProjectInfo) : List BuildCommand :=
  match h.externalBuild files name configuration with
  | .error _ => [Shell.shellCommand project.buildCommand project.dir]
  | .ok _ => []

end Host

/-- The command that starts the debugger of a project, if it has one. -/
def ProjectInfo.debuggerCommand? (project : ProjectInfo) : Option BuildCommand :=
  project.debugger.map fun debugger => Shell.shellCommand debugger project.dir

theorem ProcessState.isSuccess_exited (code : Option Int32) :
    (exited code).isSuccess = (code == some 0) := by
  cases code <;> rfl

/-! ## Waiting for the only process -/

namespace Stage

variable {h : Host} {st : Stage}

theorem settle_of_background_eq_nil (hbackground : st.background = []) : st.settle h = st := by
  rw [settle, hbackground]
  simp [settleAll, ← hbackground]

/-- The only process of a session ends by itself. -/
theorem endProcess_only {p : BuildProcess} (hprocesses : st.session.engine.processes = [p])
    (hwatching : p.supervision = .watching) (hkill : p.killRequested = false)
    (hbackground : st.background = []) :
    let ended := (st.endProcess h 0).session.engine
    ended.processes.stateAt 0 = .exited p.run.code ∧
      ended.lifecycle = st.session.engine.lifecycle ∧ ended.fired = st.session.engine.fired ∧
      ended.files = st.session.engine.files := by
  have hends : p.endsByItself = true := by
    simp [BuildProcess.endsByItself, hwatching, hkill]
  have hended : st.endByItself h 0 =
      { st with session :=
        { st.session with
          engine := { st.session.engine.tell (p.run.forwarded h.settings.killGraceMs.toNat) with
            processes := [{ p with supervision := .exited p.run.code }] } } } := by
    rw [endByItself, hprocesses]
    simp only [List.getElem?_cons_zero, hends, if_true]
    refine (settle_of_background_eq_nil ?_).trans ?_
    · exact hbackground
    · simp [supervise, Processes.supervise, Engine.tell, hprocesses, BuildProcess.observeExit,
        hwatching, BuildProcess.drained]
  have hending : st.endingUntil h (st.releaseTime h 0 p) 0 = [0] := by
    simp [endingUntil, hprocesses, hends]
  have hwaits : (decide (p.supervision = .watching) && p.killRequested) = false := by
    rw [hkill, Bool.and_false]
  intro ended
  -- Nothing is left whose end could be observed.
  have heq : ended = { st.session.engine.tell (p.run.forwarded h.settings.killGraceMs.toNat) with
      processes := [{ p with supervision := .exited p.run.code }] } := by
    simp [ended, endProcess, hprocesses, hwaits, hending, hended, moveClock, observeExits,
      BuildProcess.endsByItself]
  rw [heq]
  exact ⟨rfl, rfl, rfl, rfl⟩

/-- How a request for debugging comes out where no process was started before: the stage then, and
the answer. -/
inductive DebugPerformed (h : Host) (st : Stage) (name configuration label : String) :
    Stage × Answer → Prop
  /-- The external build cannot be started, and the engine falls back. -/
  | fellBack {after : Stage} {reason : EngineError}
      (external : h.externalBuild st.session.engine.files name configuration = .error reason)
      (files : after.session.engine.files = st.session.engine.files) :
    DebugPerformed h st name configuration label (after, .outcome (.fallback reason))
  /-- The external build has ended. Its follow-up ran if it exited with code zero, and the answer
  says the same. -/
  | ended {after : Stage} {run : ProcessRun}
      (external : h.externalBuild st.session.engine.files name configuration =
        .ok (run, after.session.engine.files))
      (fired : after.session.engine.fired = st.session.engine.fired ++
        if run.code == some 0 then [{ label, sawPending := false, phase := .idle }] else []) :
    DebugPerformed h st name configuration label
      (after, .outcome (.completed (.exited run.code) (run.code == some 0)))

theorem debugPerformed (hprocesses : st.session.engine.processes = [])
    (hbackground : st.background = []) (name configuration : String) {f : FollowUp}
    (hf : f.later = []) :
    DebugPerformed h st name configuration f.label
      (st.perform h (.debug name configuration f)) := by
  have hbegun := Engine.debugBegun h st.session.engine name configuration f
  rw [perform, Session.begin]
  generalize st.session.engine.debugStartup h name configuration f = result at *
  cases hbegun with
  | busy live => simp [hprocesses, Processes.isLive, Processes.latest?] at live
  | unprepared prepared _ files =>
    exact .fellBack (by rw [Host.externalBuild, prepared]) files
  | unlaunched prepared launched _ files =>
    refine .fellBack ?_ files
    simp only [Host.externalBuild, prepared, launched, Except.mapError]
  | @waits e' info command run free prepared launched processes fired lifecycle =>
    rw [hprocesses, List.nil_append] at processes
    obtain ⟨hstate, hlifecycle, hfired, hfiles⟩ :=
      @endProcess_only h { st with session.engine := e' } _ processes rfl rfl hbackground
    rw [hprocesses]
    simp only [Task.waits, finish, Task.process, List.length_nil]
    generalize endProcess h { st with session.engine := e' } 0 = ended at *
    -- The request goes on with nothing but its own follow-up pending.
    obtain ⟨-, -, hran, hanswer⟩ := ended.session.resume_unitRun_of_pending h hf
      (hlifecycle.trans lifecycle) { unit := info.name, process := 0 }
    have hresumed : (ended.session.resume h (.unitRun ⟨info.name, 0⟩)).1.engine.files =
        ended.session.engine.files := ended.session.engine.files_complete _
    rw [hstate, ProcessState.isSuccess_exited] at hanswer hran
    rw [hanswer, finish]
    refine .ended ?_ (hran.trans (congrArg (· ++ _) (hfired.trans fired)))
    simp only [Host.externalBuild, prepared, launched, Except.mapError, hresumed, hfiles]

end Stage

namespace Console

namespace Run

variable {h : Host} {r : Run} {commandLine : String} {dir : Path} {project : ProjectInfo}

/-- A follow-up has run when it is the only one that may have run meanwhile, and did. -/
theorem ranSince_of_fired {earlier : Run} {label : String} {sawPending ran : Bool} {phase : Phase}
    (hfired : r.stage.session.engine.fired =
      earlier.stage.session.engine.fired ++ if ran then [⟨label, sawPending, phase⟩] else []) :
    r.ranSince earlier label = ran := by
  rw [ranSince, hfired, List.drop_left]
  cases ran <;> simp

/-! ## The shell -/

theorem commands_runShell :
    (r.runShell h commandLine dir).1.commands =
      r.commands ++ [Shell.shellCommand commandLine dir] := by
  rw [runShell]
  dsimp only
  split <;> rfl

/-- What succeeds in the shell, and the files that it leaves. -/
theorem runShell_eq_ok_iff {after : FileTree} :
    (r.runShell h commandLine dir).2 = .ok true ∧ (r.runShell h commandLine dir).1.files = after ↔
      h.filesAfter? r.files (Shell.shellCommand commandLine dir) = some after := by
  rw [runShell, Host.filesAfter?]
  dsimp only [files]
  cases h.launch r.stage.session.engine.files (Shell.shellCommand commandLine dir) with
  | error cause => simp
  | ok launched => simp [display]

theorem runShell_succeeds_iff :
    (r.runShell h commandLine dir).2 = .ok true ↔
      (h.filesAfter? r.files (Shell.shellCommand commandLine dir)).isSome = true := by
  rw [Option.isSome_iff_exists]
  constructor
  · intro hok
    exact ⟨_, runShell_eq_ok_iff.1 ⟨hok, rfl⟩⟩
  · rintro ⟨after, hafter⟩
    exact (runShell_eq_ok_iff.2 hafter).1

/-- The debugger is started if there is one, and decides how the command ends. -/
theorem launchDebugger_commands (r : Run) (h : Host) (project : ProjectInfo) :
    (r.launchDebugger h project).1.commands = r.commands ++ project.debuggerCommand?.toList ∧
      ((r.launchDebugger h project).2 = .code true ↔
        ∀ command ∈ project.debuggerCommand?, (h.filesAfter? r.files command).isSome = true) := by
  rw [launchDebugger, ProjectInfo.debuggerCommand?]
  cases project.debugger with
  | none => simp [display]
  | some debugger =>
    dsimp only
    -- What is shown changes neither the files nor the record.
    generalize hstarting : r.display (·.info ("Starting debugger: " ++ debugger)) = starting
    have hcommands : starting.commands = r.commands := by rw [← hstarting]; rfl
    have hfiles : starting.files = r.files := by rw [← hstarting]; rfl
    have hgiven := @commands_runShell h starting debugger project.dir
    have hsucceeds := @runShell_succeeds_iff h starting debugger project.dir
    rw [hcommands] at hgiven
    rw [hfiles] at hsucceeds
    generalize starting.runShell h debugger project.dir = ran at *
    obtain ⟨after, failure | success⟩ := ran
    · exact ⟨hgiven, by simpa using hsucceeds⟩
    · exact ⟨hgiven, by simpa using hsucceeds⟩

/-! ## The command -/

/-- What the debugging command does when the engine has fallen back: the project's own build command
is run, and after a success the debugger. -/
theorem defaultBuild_launchDebugger (r : Run) (h : Host) (project : ProjectInfo) :
    let own := Shell.shellCommand project.buildCommand project.dir
    let ended : Run × Ending :=
      match r.defaultBuild h project with
      | (r, .error failure) => (r, .failed failure)
      | (r, .ok true) => r.launchDebugger h project
      | (r, .ok false) => (r, .code false)
    ended.1.commands = r.commands ++ [own] ++
        (if (h.filesAfter? r.files own).isSome then project.debuggerCommand?.toList else []) ∧
      (ended.2 = .code true ↔ ∃ after, h.filesAfter? r.files own = some after ∧
        ∀ command ∈ project.debuggerCommand?, (h.filesAfter? after command).isSome = true) := by
  intro own
  rw [defaultBuild]
  generalize hstarting : r.display (·.info ("Running default build for " ++ project.name)) =
    starting
  have hcommands : starting.commands = r.commands := by rw [← hstarting]; rfl
  have hfiles : starting.files = r.files := by rw [← hstarting]; rfl
  have hgiven := @commands_runShell h starting project.buildCommand project.dir
  have hiff (after : FileTree) :=
    @runShell_eq_ok_iff h starting project.buildCommand project.dir after
  rw [hcommands] at hgiven
  rw [hfiles] at hiff
  change _ = r.commands ++ [own] at hgiven
  change ∀ after, _ ↔ h.filesAfter? r.files own = some after at hiff
  clear_value own
  generalize starting.runShell h project.buildCommand project.dir = ran at *
  have hnone (hfailed : ran.2 ≠ .ok true) : h.filesAfter? r.files own = none :=
    Option.eq_none_iff_forall_not_mem.2 fun after hafter => hfailed ((hiff after).2 hafter).1
  -- Only after a success anything else is given to the shell, on the files that it leaves.
  obtain ⟨left, failure | _ | _⟩ := ran
  · simpa [hnone] using hgiven
  · simpa [hnone] using hgiven
  · have hafter := (hiff left.files).1 ⟨rfl, rfl⟩
    obtain ⟨hdebugger, hends⟩ := left.launchDebugger_commands h project
    simp only at hgiven
    rw [hgiven] at hdebugger
    simp [hafter, hdebugger, hends]

/-- What a run of the debugging command gives to the shell, where nothing was started before, and
when it succeeds. -/
theorem debug_commands (hprocesses : r.stage.session.engine.processes = [])
    (hbackground : r.stage.background = []) (around : Surroundings) {name configuration : String}
    (hproject : h.manifest.project name configuration = .ok project) :
    let debugged := r.debug h around name configuration
    let built := h.filesBuilt? r.files name configuration project
    debugged.1.commands = r.commands ++ h.buildCommands r.files name configuration project ++
        (if built.isSome then project.debuggerCommand?.toList else []) ∧
      (debugged.2 = .code true ↔ ∃ after, built = some after ∧
        ∀ command ∈ project.debuggerCommand?, (h.filesAfter? after command).isSome = true) := by
  have hperformed := Stage.debugPerformed (h := h) hprocesses hbackground name configuration
    (f := { label := "debug " ++ name }) rfl
  rw [debug, hproject]
  dsimp only
  rw [ask]
  generalize r.stage.perform h (.debug name configuration { label := "debug " ++ name }) =
    performed at *
  cases hperformed with
  | fellBack external files =>
    -- What the engine did before it fell back left the files alone.
    dsimp only
    generalize hshown : display _ _ = shown
    have hfiles : shown.files = r.files := by rw [← hshown]; exact files
    have hcommands : shown.commands = r.commands := by rw [← hshown]; rfl
    have hended := shown.defaultBuild_launchDebugger h project
    rw [hfiles, hcommands] at hended
    have hexternal : h.externalBuild r.files name configuration = .error _ := external
    rw [Host.filesBuilt?, Host.buildCommands, hexternal]
    exact hended
  | @ended after run external fired =>
    have hexternal : h.externalBuild r.files name configuration =
      .ok (run, after.session.engine.files) := external
    rw [Host.filesBuilt?, Host.buildCommands, hexternal]
    dsimp only
    generalize hshown : display _ _ = shown
    have hfiles : shown.files = after.session.engine.files := by rw [← hshown]; rfl
    have hcommands : shown.commands = r.commands := by rw [← hshown]; rfl
    have hran : shown.ranSince r ("debug " ++ name) = (run.code == some 0) := by
      rw [← hshown]
      exact ranSince_of_fired fired
    rw [hran]
    -- The follow-up has run exactly when the process exited with code zero.
    by_cases hcode : run.code = some 0
    · obtain ⟨hdebugger, hends⟩ := shown.launchDebugger_commands h project
      simp [hcode, hdebugger, hends, hfiles, hcommands]
    · simp [hcode, hcommands]

end Run

theorem runInvocation_of_load_error {around : Surroundings} {coloured : Bool} {files : FileTree}
    {i : Invocation} {e : HostError} (hload : Manifest.load files i.manifest = .error e) :
    let result := runInvocation around coloured files i
    result.commands = [] ∧ result.code = 1 := by
  rw [runInvocation, hload]
  exact ⟨rfl, rfl⟩

/-- An invocation does what is asked for, and its exit code tells whether that was a success. -/
theorem runInvocation_of_load_ok {around : Surroundings} {coloured : Bool} {files : FileTree}
    {i : Invocation} {manifest : Manifest} (hload : Manifest.load files i.manifest = .ok manifest) :
    let idle : Run := { stage := { session := { engine := { files } } }, terminal := { coloured } }
    let ended := idle.perform { manifest, launch := around.launch } around i.request
    let result := runInvocation around coloured files i
    result.commands = ended.1.commands ∧ result.code ≤ 1 ∧
      (result.code = 0 ↔ ended.2 = .code true) := by
  intro idle ended result
  have hresult : result = runInvocation around coloured files i := rfl
  rw [runInvocation, hload] at hresult
  have hended : ended = idle.perform { manifest, launch := around.launch } around i.request := rfl
  dsimp only at hresult
  rw [← hended] at hresult
  clear_value ended
  obtain ⟨r, success | failure⟩ := ended
  · cases success <;> simp [hresult]
  · simp [hresult]

/-- The debugger is started only after a success. One run of the debugging command gives nothing to
the shell unless the manifest can be loaded and has the project. Then it runs the project's own
build command exactly when the engine falls back, and after that the debugger, if there is one,
exactly when the external build, or that command in its place, exits with code zero. The command
succeeds exactly when the build does and the debugger, if there is one, exits with code zero. -/
theorem runInvocation_debug (around : Surroundings) (coloured : Bool) (files : FileTree)
    (path : Path) (verbose : Bool) (name configuration : String) :
    let result := runInvocation around coloured files
      { manifest := path, verbose, request := .debug name configuration }
    (∀ e, Manifest.load files path = .error e → result.commands = [] ∧ result.code = 1) ∧
      ∀ manifest, Manifest.load files path = .ok manifest →
        let h : Host := { manifest, launch := around.launch }
        (∀ e, manifest.project name configuration = .error e →
            result.commands = [] ∧ result.code = 1) ∧
          ∀ project, manifest.project name configuration = .ok project →
            let built := h.filesBuilt? files name configuration project
            result.commands = h.buildCommands files name configuration project ++
                (if built.isSome then project.debuggerCommand?.toList else []) ∧
              (result.code = 0 ↔ ∃ after, built = some after ∧
                ∀ command ∈ project.debuggerCommand?,
                  (h.filesAfter? after command).isSome = true) := by
  intro result
  refine ⟨fun e hload => runInvocation_of_load_error hload, fun manifest hload => ?_⟩
  intro h
  obtain ⟨hcommands, hle, hcode⟩ := @runInvocation_of_load_ok around coloured files
    ⟨path, verbose, .debug name configuration⟩ manifest hload
  rw [Run.perform] at hcommands hcode
  constructor
  · intro e hproject
    rw [Run.debug, hproject] at hcommands hcode
    have hfailed : result.code ≠ 0 := fun hzero => nomatch hcode.1 hzero
    exact ⟨hcommands, by change result.code ≤ 1 at hle; omega⟩
  · intro project hproject built
    obtain ⟨hgiven, hends⟩ := Run.debug_commands (h := h)
      (r := { stage := { session := { engine := { files } } }, terminal := { coloured } }) rfl rfl
      around hproject
    exact ⟨hcommands.trans hgiven, hcode.trans hends⟩

/-- Without a launcher the project builds itself, and its debugger is started after that. -/
example :
    let files : FileTree :=
      { nodes := [(["s"], .directory), (["s", "fbtools.toml"], .file
          ("[solution]\nname='Game'\n[[projects]]\nname='App'\ndir='.'\ndebugger='run'\n" ++
            "[projects.build_commands]\nDebug='make'").toUTF8 false)] }
    let around : Surroundings :=
      { launch := fun files _ => .ok ({}, files), showDuration := fun _ => "" }
    let result := runInvocation around false files
      { manifest := ⟨"/s/fbtools.toml"⟩, verbose := false, request := .debug "App" "Debug" }
    result.commands = [Shell.shellCommand "make" ⟨"/s"⟩, Shell.shellCommand "run" ⟨"/s"⟩] ∧
      result.code = 0 := by
  decide +kernel

end Console

end SoloBuild
