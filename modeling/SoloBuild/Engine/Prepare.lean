import SoloBuild.Engine.Basic
import SoloBuild.SingleFile.Synthesis

/-!
# Preparing single-file compiles

Everything a single-file compile needs is first read and computed, and only then is anything
written: a plan leaves the files alone, and carrying it out writes the transient config and removes
what earlier compiles left.

- `prepare_of_plan_error`: a failed plan leaves the files as they were.
-/

namespace SoloBuild

open Description SingleFile

/-- What a single-file compile is going to use, before anything is written. -/
structure CompilePlan where
  project : ProjectInfo
  target : Target
  /-- The solution's description. -/
  solution : Document
  executable : Path
  deriving DecidableEq, Repr

/-- A single-file compile that is ready to be started. -/
structure PreparedCompile where
  project : ProjectInfo
  target : Target
  config : TransientConfig
  command : BuildCommand
  deriving DecidableEq, Repr

namespace Manifest

/-- Reads a build description. -/
def readDescription (t : FileTree) (path : Path) : Except EngineError Document :=
  match t.readText path with
  | .error cause => .error (.read path cause)
  | .ok text => .ok { path, text }

/-- Reads the launcher script of the solution. -/
def readLauncher (m : Manifest) (t : FileTree) : Except EngineError Launcher :=
  let script := m.solution.launcherPath m.settings
  match t.readText script with
  | .error cause => .error (.read script cause)
  | .ok text => (Launcher.read script text m.solution.dir).mapError .launcher

/-- The project is built through the launcher. -/
def isExternal (m : Manifest) (project : ProjectInfo) : Bool :=
  Launcher.usesLauncher project.buildCommand m.settings.launcherMarker

/-- Refuses a project that is not built through the launcher. -/
def ensureExternal (m : Manifest) (project : ProjectInfo) : Except EngineError Unit :=
  if m.isExternal project then .ok ()
  else .error (.notApplicable project.name m.settings.launcherMarker)

/-- What the compile of a file is going to use. -/
def planCompile (m : Manifest) (t : FileTree) (file : Path) (configuration : String) :
    Except EngineError CompilePlan := do
  -- Every step may refuse, and the first refusal is the one that is reported.
  let source ← (t.canonicalize file).mapError (.read file)
  let project ← (m.projectForFile t source configuration).mapError .host
  m.ensureExternal project
  let launcher ← m.readLauncher t
  let name ← (Launcher.targetOf project.buildCommand).mapError .launcher
  let description ← readDescription t project.descriptionPath
  let node ← (description.locate name TargetKind.all).mapError .locate
  let solution ← readDescription t m.solution.descriptionPath
  return {
    project
    target := Target.ofNode node source m.settings
    solution
    executable := launcher.executable }

/-- The command that runs a planned compile on its transient config. -/
def compileCommand (m : Manifest) (plan : CompilePlan) (config : Path) : BuildCommand :=
  { program := plan.executable
    args := Launcher.singleFileArguments m.settings.singleFileTarget config
    workingDir := plan.project.dir }

/-- Prepares the compile of a file: writes its transient config, and removes earlier output. -/
def prepareCompile (m : Manifest) (t : FileTree) (file : Path) (configuration : String) :
    FileTree × Except EngineError PreparedCompile :=
  match m.planCompile t file configuration with
  | .error e => (t, .error e)
  | .ok plan =>
    let synthesized :=
      synthesize t plan.solution plan.target.name plan.target.text plan.project.dir m.settings
    (synthesized.1,
      match synthesized.2 with
      | .error (path, cause) => .error (.write path cause)
      | .ok config => .ok {
          project := plan.project
          target := plan.target
          config
          command := m.compileCommand plan config.path })

/-- A failed plan leaves the files as they were. -/
theorem prepare_of_plan_error {m : Manifest} {t : FileTree} {file : Path} {configuration : String}
    {e : EngineError} (h : m.planCompile t file configuration = .error e) :
    m.prepareCompile t file configuration = (t, .error e) := by
  simp [prepareCompile, h]

end Manifest

end SoloBuild
