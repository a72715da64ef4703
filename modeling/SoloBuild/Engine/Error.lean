import SoloBuild.Description.Locate
import SoloBuild.Launcher
import SoloBuild.Process.State
import SoloBuild.Solution.Project

/-!
# Why a request cannot be served

Every failure of a request is one of these causes. All of them lead to the same consequence, the
default build, so the four categories only say where the cause lies.
-/

namespace SoloBuild

/-- Where the cause of a failure lies. -/
inductive FailureCategory where
  /-- The request is not one for the external build. -/
  | notApplicable
  | parse
  | io
  | launch
  deriving DecidableEq, Repr

/-- Why a request cannot be served. -/
inductive EngineError where
  /-- The project's build command does not run the launcher. -/
  | notApplicable (project marker : String)
  /-- A selection has fewer than two projects. -/
  | selectionTooSmall (count : Nat)
  /-- No project of a selection gave a target. -/
  | emptySelection
  | host (cause : HostError)
  | launcher (cause : LauncherError)
  | locate (cause : Description.LocateError)
  /-- A file that the request needs cannot be read. -/
  | read (path : Path) (cause : OsError)
  /-- The transient config cannot be written. -/
  | write (path : Path) (cause : OsError)
  | process (cause : ProcessError)
  deriving DecidableEq, Repr

namespace EngineError

/-- Where the cause lies. -/
def category : EngineError → FailureCategory
  | notApplicable .. | selectionTooSmall _ | emptySelection => .notApplicable
  | host (.read ..) => .io
  | host (.parse ..) => .parse
  | host _ => .notApplicable
  | launcher (.noExecutable _) => .launch
  | launcher (.noTarget _) => .parse
  | locate _ => .parse
  | read .. | write .. => .io
  | process _ => .launch

/-- The text an error is reported with. -/
def message : EngineError → String
  | notApplicable project marker => "project '" ++ project ++ "' is not built through " ++ marker
  | selectionTooSmall count =>
    "a selection build needs at least two projects, got " ++ toString count
  | emptySelection => "no project of the selection is built through the launcher"
  | host cause => cause.message
  | launcher cause => cause.message
  | locate cause => cause.message
  | read path cause => "failed to read " ++ path.text ++ ": " ++ cause.message
  | write path cause =>
    "failed to write transient config " ++ path.text ++ ": " ++ cause.message
  | process cause => cause.message

/-- The operating system error below a failure, when it is told apart from the failure itself. -/
def source? : EngineError → Option OsError
  | host (.read _ cause) => some cause
  | read _ cause => some cause
  | write _ cause => some cause
  | process (.launch _ cause) => some cause
  | _ => none

end EngineError

end SoloBuild
