import SoloBuild.Engine.Prepare

/-!
# Requests

The requests an engine serves: the compile of one file, the build of a selection of projects, and
the build of a project that is to be debugged. Each runs on a channel of its own, and none leaves
its caller without a build: when it fails, the sink is told why, and the answer is to fall back to
the default build.

A request for debugging waits for the end of its process; what it still has to do then is kept as a
`Completion`.
-/

namespace SoloBuild

/-- How a request ended. -/
inductive Outcome where
  /-- The process at this position runs. -/
  | started (channel : Channel) (process : Nat)
  /-- The process ended, and maybe a follow-up ran. -/
  | completed (state : ProcessState) (followUpFired : Bool)
  /-- The channel has a live process, and nothing was started. -/
  | busy (channel : Channel)
  /-- The default build is to be run. -/
  | fallback (reason : EngineError)
  deriving DecidableEq, Repr

/-- What is left to be done for a unit when its process has ended. -/
structure Completion where
  unit : String
  process : Nat
  deriving DecidableEq, Repr

/-- What a project contributes to a selection: a target, or a message that tells why it does not. -/
def Manifest.selectionEntry (m : Manifest) (configuration name : String) :
    Except String String :=
  match m.project name configuration with
  | .error e => .error ("Skipping " ++ name ++ ": " ++ e.message)
  | .ok project =>
    if m.isExternal project then
      (Launcher.targetOf project.buildCommand).mapError fun e => "Error: " ++ e.message
    else .error ("Skipping " ++ name ++ ": not built through " ++ m.settings.launcherMarker)

/-- The targets of a selection, in order. -/
def Manifest.selectionTargets (m : Manifest) (configuration : String) (names : List String) :
    List String :=
  names.filterMap fun name => (m.selectionEntry configuration name).toOption

/-- The messages about the projects of a selection that do not contribute, in order. -/
def Manifest.selectionMessages (m : Manifest) (configuration : String) (names : List String) :
    List String :=
  names.filterMap fun name =>
    match m.selectionEntry configuration name with
    | .error message => some message
    | .ok _ => none

/-- The command that builds targets of a solution. -/
def Manifest.selectionCommand (m : Manifest) (launcher : Launcher) (targets : List String)
    (clean : Bool) : BuildCommand :=
  { program := launcher.executable
    args := Launcher.selectionArguments launcher.options targets clean m.solution.descriptionPath
    workingDir := m.solution.dir }

/-- The project to be debugged, and the command that builds it. -/
def Manifest.startupCommand (m : Manifest) (t : FileTree) (name configuration : String) :
    Except EngineError (ProjectInfo × BuildCommand) := do
  let project ← (m.project name configuration).mapError .host
  m.ensureExternal project
  let launcher ← m.readLauncher t
  let target ← (Launcher.targetOf project.buildCommand).mapError .launcher
  return (project, m.selectionCommand launcher [target] false)

namespace Engine

/-- Tells why a request failed, and that the default build takes its place. -/
def fallBack (e : Engine) (reason : EngineError) : Engine × Outcome :=
  ((e.say ("Error: " ++ reason.message)).say "Falling back to default build...",
    .fallback reason)

/-- Starts the process of a request. -/
def launchOn (h : Host) (e : Engine) (c : Channel) (command : BuildCommand) : Engine × Outcome :=
  match e.start h c command with
  | (e, .ok process) => (e, .started c process)
  | (e, .error (.alreadyRunning c)) => (e, .busy c)
  | (e, .error reason) => e.fallBack (.process reason)

/-- Compiles one file. -/
def compileSingleFile (h : Host) (e : Engine) (file : Path) (configuration : String) :
    Engine × Outcome :=
  if e.isRunning .singleFile then (e, .busy .singleFile)
  else
    let e := e.tell [.clear, .activate]
    -- A failed preparation may have changed files all the same.
    let prepared := h.manifest.prepareCompile e.files file configuration
    let e := { e with files := prepared.1 }
    match prepared.2 with
    | .error reason => e.fallBack reason
    | .ok p =>
      let e :=
        e.say ("Compiling " ++ p.target.inputFile.text ++ " as part of " ++ p.target.sourceName)
      e.launchOn h .singleFile p.command

/-- Builds several projects at once. Projects that do not contribute a target are skipped with a
message. -/
def buildSelection (h : Host) (e : Engine) (names : List String) (configuration : String)
    (clean : Bool) : Engine × Outcome :=
  if e.isRunning .selection then (e, .busy .selection)
  else
    let e := e.tell [.clear, .activate]
    if names.length < 2 then e.fallBack (.selectionTooSmall names.length)
    else
      match h.manifest.readLauncher e.files with
      | .error reason => e.fallBack reason
      | .ok launcher =>
        -- All messages come before the one about the build.
        let messages := h.manifest.selectionMessages configuration names
        let targets := h.manifest.selectionTargets configuration names
        let e := e.tell (messages.map .writeLine)
        if targets.isEmpty then e.fallBack .emptySelection
        else
          (e.say ("Building " ++ ", ".intercalate targets)).launchOn h .selection
            (h.manifest.selectionCommand launcher targets clean)

/-- Reports the end of a unit, and with it of its build. -/
def complete (e : Engine) (c : Completion) : Engine × Outcome :=
  let state := e.processes.stateAt c.process
  let unitDone := e.signal (.unitDone c.unit state.isSuccess)
  let done := unitDone.1.signal .done
  (done.1, .completed state done.2)

/-- Builds the project to be debugged; the follow-up is to run when that succeeds. -/
def debugStartup (h : Host) (e : Engine) (project configuration : String) (followUp : FollowUp) :
    Engine × (Outcome ⊕ Completion) :=
  if e.isRunning .startup then (e, .inl (.busy .startup))
  else
    let e := e.tell [.clear, .activate]
    match h.manifest.startupCommand e.files project configuration with
    | .error reason =>
      let (e, outcome) := e.fallBack reason
      (e, .inl outcome)
    | .ok (info, command) =>
      -- A new build drops the follow-up of an earlier one, so it begins before the request.
      let e := (e.signal .begin).1.requestFollowUp followUp
      let e := e.say ("Building " ++ info.name ++ " before debugging")
      match e.start h .startup command with
      | (e, .ok process) => (e, .inr { unit := info.name, process })
      | (e, .error reason) =>
        -- The build that was begun ends as one whose only unit failed.
        let e := (e.signal (.unitDone info.name false)).1
        let e := (e.signal .done).1
        match reason with
        | .alreadyRunning c => (e, .inl (.busy c))
        | reason =>
          let (e, outcome) := e.fallBack (.process reason)
          (e, .inl outcome)

/-- Drops the pending follow-up once all processes have been killed, and says so if there were
any. -/
def finishCancel (e : Engine) (killed : Nat) : Engine :=
  let e := (e.signal .cancelRequested).1
  if 0 < killed then e.say "Build has been canceled by user." else e

end Engine

end SoloBuild
