import SoloBuild.OsError
import SoloBuild.Path
import SoloBuild.Settings

/-!
# Projects and solutions

What a build needs to know of the solution it works on: where its projects and its descriptions are,
and how a project is built for a configuration.
-/

namespace SoloBuild

/-- The file extension of build descriptions, with its dot. -/
def descriptionExtension : String := ".bff"

/-- A project, for one configuration. -/
structure ProjectInfo where
  name : String
  dir : Path
  /-- The command line that builds the project. -/
  buildCommand : String
  /-- The command line that debugs the project, if there is one. -/
  debugger : Option String
  deriving DecidableEq, Repr

/-- The project's build description. -/
def ProjectInfo.descriptionPath (p : ProjectInfo) : Path :=
  p.dir.join ⟨p.name ++ descriptionExtension⟩

/-- A solution. -/
structure SolutionInfo where
  name : String
  dir : Path
  deriving DecidableEq, Repr

/-- The solution's build description. -/
def SolutionInfo.descriptionPath (s : SolutionInfo) : Path :=
  s.dir.join ⟨s.name ++ descriptionExtension⟩

/-- The solution's launcher script. -/
def SolutionInfo.launcherPath (s : SolutionInfo) (settings : Settings) : Path :=
  s.dir.join ⟨settings.launcherScript⟩

/-- Why the solution does not know what it is asked for. -/
inductive HostError where
  | unknownProject (name : String)
  | noOwningProject (file : Path)
  | noBuildCommand (project configuration : String)
  /-- The manifest cannot be read. -/
  | read (path : Path) (cause : OsError)
  /-- The manifest is not a well-formed manifest. -/
  | parse (path : Path)
  deriving DecidableEq, Repr

/-- The text an error is reported with. -/
def HostError.message : HostError → String
  | unknownProject name => "unknown project '" ++ name ++ "'"
  | noOwningProject file => file.text ++ " does not belong to any project"
  | noBuildCommand project configuration =>
    "project '" ++ project ++ "' has no build command for configuration '" ++ configuration ++ "'"
  | read path cause => "failed to read " ++ path.text ++ ": " ++ cause.message
  | parse path => "failed to parse " ++ path.text ++ ": TOML parse error"

end SoloBuild
