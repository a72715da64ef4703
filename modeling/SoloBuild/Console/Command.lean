import SoloBuild.Console.Arguments
import SoloBuild.Console.Failure
import SoloBuild.Console.Help
import SoloBuild.Console.Report
import SoloBuild.Console.Terminal
import SoloBuild.Session.Schedule

/-!
# Commands

The four commands. Each loads the manifest and asks the engine; when the engine falls back, the
projects' own build commands are run through the shell instead, and their output goes straight to
the terminal.
-/

namespace SoloBuild

/-- The command that runs a command line through the shell. -/
def Shell.shellCommand (commandLine : String) (workingDir : Path) : BuildCommand :=
  { program := ⟨"/bin/sh"⟩, args := ["-c", commandLine], workingDir }

namespace Console

/-- What a command needs from its surroundings: how commands are started, and how a duration in
milliseconds is shown. -/
structure Surroundings where
  launch : FileTree → BuildCommand → Except OsError (ProcessRun × FileTree)
  showDuration : Nat → String

/-- The state of a command: the engine, what was shown, and what was given to the shell. -/
structure Run where
  stage : Stage
  terminal : Terminal
  /-- The commands that were given to the shell, in order. -/
  commands : List BuildCommand := []

/-- How a command ends. -/
inductive Ending where
  | code (success : Bool)
  | failed (failure : Failure)
  deriving DecidableEq, Repr

namespace Run

/-- The files. -/
def files (r : Run) : FileTree := r.stage.session.engine.files

/-- Changes the terminal. -/
def display (r : Run) (f : Terminal → Terminal) : Run :=
  { r with terminal := f r.terminal }

/-- Asks the engine for something, and shows what its sink is told meanwhile. -/
def ask (r : Run) (h : Host) (call : Call) : Run × Answer :=
  let told := r.stage.session.engine.output.length
  let performed := r.stage.perform h call
  let calls := performed.1.session.engine.output.drop told
  ({ r with stage := performed.1, terminal := calls.foldl Terminal.tell r.terminal }, performed.2)

/-- The follow-up with a label has run since an earlier moment. -/
def ranSince (r earlier : Run) (label : String) : Bool :=
  let told := earlier.stage.session.engine.fired.length
  (r.stage.session.engine.fired.drop told).any (·.label == label)

/-- Waits for a process, and shows what it writes. -/
def awaitProcess (r : Run) (h : Host) (process : Nat) : Run × ProcessState :=
  let told := r.stage.session.engine.output.length
  let stage := r.stage.endProcess h process
  let calls := stage.session.engine.output.drop told
  ({ r with stage, terminal := calls.foldl Terminal.tell r.terminal },
    stage.session.engine.processes.stateAt process)

/-- How long the process at a position takes until its end is observed. -/
def elapsed (r : Run) (h : Host) (process : Nat) : Nat :=
  match r.stage.session.engine.processes[process]? with
  | some p => p.run.observedAt h.settings.killGraceMs.toNat
  | none => 0

/-- The bytes of a stream, as text. -/
def streamText (s : OutputStream) : String :=
  String.ofList (Text.decodeLossy (s.pieces.flatMap (·.bytes)))

/-- Runs a command line through the shell. The answer says whether it succeeded. -/
def runShell (r : Run) (h : Host) (commandLine : String) (dir : Path) : Run × Except Failure Bool :=
  let command := Shell.shellCommand commandLine dir
  let r := { r with commands := r.commands ++ [command] }
  match h.launch r.files command with
  | .error cause =>
    (r, .error { attempted := "Failed to run '" ++ commandLine ++ "'", causes := [cause.message] })
  | .ok (run, files) =>
    let r := { r with stage.session.engine.files := files }
    (r.display fun t => (t.print (streamText run.stdout)).printError (streamText run.stderr),
      .ok (run.code == some 0))

/-- Builds a project with its own build command. -/
def defaultBuild (r : Run) (h : Host) (project : ProjectInfo) : Run × Except Failure Bool :=
  (r.display (·.info ("Running default build for " ++ project.name))).runShell h
    project.buildCommand project.dir

/-- Builds projects one by one, up to the first failure. -/
def defaultBuilds (r : Run) (h : Host) (configuration : String) : List String → Run × Ending
  | [] => (r, .code true)
  | name :: names =>
    match h.manifest.project name configuration with
    | .error e =>
      (r, .failed { attempted := "No default build for " ++ name
                    causes := Failure.causesOfHost e })
    | .ok project =>
      match r.defaultBuild h project with
      | (r, .error failure) => (r, .failed failure)
      | (r, .ok false) => (r, .code false)
      | (r, .ok true) => defaultBuilds r h configuration names

/-- Waits for a started build, and shows how it ended. -/
def finishBuild (r : Run) (h : Host) (around : Surroundings) (process : Nat) : Run × Ending :=
  let (r, state) := r.awaitProcess h process
  let shown := around.showDuration (r.elapsed h process)
  (r.display (·.buildResult state shown), .code state.isSuccess)

/-- A request that could not be served because its channel is taken. -/
def busyFailure (c : Channel) : Failure :=
  { attempted := "A " ++ c.name ++ " build is already running", causes := [] }

/-- Compiles one file, or else builds its project. -/
def compile (r : Run) (h : Host) (around : Surroundings) (file : Path) (configuration : String) :
    Run × Ending :=
  match r.ask h (.compile file configuration) with
  | (r, .outcome (.started _ process)) => r.finishBuild h around process
  | (r, .outcome (.completed state _)) => (r, .code state.isSuccess)
  | (r, .outcome (.busy c)) => (r, .failed (busyFailure c))
  | (r, .outcome (.fallback reason)) =>
    let r := r.display (·.warning ("Single file compile unavailable: " ++ reason.message))
    match h.manifest.projectForFile r.files file configuration with
    | .error e =>
      (r, .failed { attempted := "No default build for " ++ file.text
                    causes := Failure.causesOfHost e })
    | .ok project =>
      match r.defaultBuild h project with
      | (r, .error failure) => (r, .failed failure)
      | (r, .ok success) => (r, .code success)
  | (r, _) => (r, .code false)

/-- Builds several projects at once, or else one by one. -/
def build (r : Run) (h : Host) (around : Surroundings) (projects : List String)
    (configuration : String) (clean : Bool) : Run × Ending :=
  match r.ask h (.build projects configuration clean) with
  | (r, .outcome (.started _ process)) => r.finishBuild h around process
  | (r, .outcome (.completed state _)) => (r, .code state.isSuccess)
  | (r, .outcome (.busy c)) => (r, .failed (busyFailure c))
  | (r, .outcome (.fallback reason)) =>
    (r.display (·.warning ("Selection build unavailable: " ++ reason.message))).defaultBuilds h
      configuration projects
  | (r, _) => (r, .code false)

/-- Runs the debugger of a project, if it has one. -/
def launchDebugger (r : Run) (h : Host) (project : ProjectInfo) : Run × Ending :=
  match project.debugger with
  | none => (r.display (·.warning ("No debugger configured for " ++ project.name)), .code true)
  | some debugger =>
    let r := r.display (·.info ("Starting debugger: " ++ debugger))
    match r.runShell h debugger project.dir with
    | (r, .error failure) => (r, .failed failure)
    | (r, .ok success) => (r, .code success)

/-- Builds a project and, if that succeeds, runs its debugger. -/
def debug (r : Run) (h : Host) (around : Surroundings) (name configuration : String) :
    Run × Ending :=
  match h.manifest.project name configuration with
  | .error e =>
    (r, .failed { attempted := "Cannot debug " ++ name, causes := Failure.causesOfHost e })
  | .ok project =>
    let label := "debug " ++ name
    match r.ask h (.debug name configuration { label }) with
    | (asked, .outcome (.completed state _)) =>
      let process := asked.stage.session.engine.processes.length - 1
      let shown := around.showDuration (asked.elapsed h process)
      let ended := asked.display (·.buildResult state shown)
      -- What counts is that the follow-up ran, not what the request answers.
      if ended.ranSince r label then ended.launchDebugger h project else (ended, .code false)
    | (r, .outcome (.busy c)) => (r, .failed (busyFailure c))
    | (r, .outcome (.fallback reason)) =>
      let r := r.display (·.warning ("Startup build unavailable: " ++ reason.message))
      match r.defaultBuild h project with
      | (r, .error failure) => (r, .failed failure)
      | (r, .ok true) => r.launchDebugger h project
      | (r, .ok false) => (r, .code false)
    | (r, _) =>
      (r, .failed { attempted := "Startup build did not wait for completion", causes := [] })

/-- Writes the transient config of a file, and reports about it. -/
def synth (r : Run) (h : Host) (file : Path) (configuration : String) (format : ReportFormat) :
    Run × Ending :=
  let prepared := h.manifest.prepareCompile r.files file configuration
  let r := { r with stage.session.engine.files := prepared.1 }
  match prepared.2 with
  | .error e =>
    (r, .failed { attempted := "Failed to synthesize config for " ++ file.text
                  causes := Failure.causesOfEngine e })
  | .ok p =>
    match format with
    | .json => (r.display (·.print (jsonReport p ++ "\n")), .code true)
    | .text =>
      let r := r.display (·.success ("Wrote " ++ p.config.path.text))
      let target := p.target.name ++ " (from " ++ p.target.sourceName ++ ")"
      let r := r.display (·.info ("Target: " ++ target))
      let r := r.display (·.info ("Command: " ++ p.command.display))
      match p.config.purged with
      | none => (r, .code true)
      | some dir => (r.display (·.info ("Removed stale intermediates: " ++ dir.text)), .code true)

/-- Does what is asked for. -/
def perform (r : Run) (h : Host) (around : Surroundings) : Request → Run × Ending
  | .compile file configuration => r.compile h around file configuration
  | .build projects configuration clean => r.build h around projects configuration clean
  | .debug project configuration => r.debug h around project configuration
  | .synth file configuration format => r.synth h file configuration format

end Run

/-- The result of a command line: the exit code, what was shown, the files, and the commands that
were given to the shell. -/
structure Result where
  code : Nat
  terminal : Terminal
  files : FileTree
  commands : List BuildCommand := []

/-- The name and version of the program. -/
def versionText : String := "fbt 0.1.0"

/-- Runs an invocation on files. -/
def runInvocation (around : Surroundings) (coloured : Bool) (files : FileTree) (i : Invocation) :
    Result :=
  let terminal : Terminal := { coloured }
  let ended : Run × Ending :=
    let idle : Run := { stage := { session := { engine := { files } } }, terminal }
    match Manifest.load files i.manifest with
    | .error e =>
      (idle, .failed { attempted := "Failed to load " ++ i.manifest.text
                       causes := Failure.causesOfHost e })
    | .ok manifest => idle.perform { manifest, launch := around.launch } around i.request
  match ended.2 with
  | .code success =>
    { code := if success then 0 else 1
      terminal := ended.1.terminal
      files := ended.1.files
      commands := ended.1.commands }
  | .failed failure =>
    { code := 1
      terminal := ended.1.terminal.printError failure.report
      files := ended.1.files
      commands := ended.1.commands }

/-- Runs a command line on files. -/
def runArguments (around : Surroundings) (coloured : Bool) (files : FileTree) (args : List String) :
    Result :=
  let terminal : Terminal := { coloured }
  match Invocation.ofArguments args with
  | .ok invocation => runInvocation around coloured files invocation
  | .error .version => { code := 0, terminal := terminal.print (versionText ++ "\n"), files }
  | .error (.help topic) => { code := 0, terminal := terminal.print topic.text, files }
  | .error .usage => { code := 2, terminal, files }

end Console

end SoloBuild
