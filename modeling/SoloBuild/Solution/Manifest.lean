import SoloBuild.FileTree.Files
import SoloBuild.Solution.ManifestText
import SoloBuild.Solution.Project

/-!
# Manifests

A manifest is a solution with its projects and settings, its directories resolved against the
directory of the manifest file. It answers what a build asks of the solution: where the solution is,
which project has a name, and which project a file belongs to.

- `innermost?_eq_none_iff`: a file belongs to no project exactly when no project directory is a
  front of its path.
-/

namespace SoloBuild

/-- A solution and its projects. -/
structure Manifest where
  /-- The file the manifest was read from. -/
  path : Path
  solution : SolutionInfo
  settings : Settings
  /-- The projects with resolved directories, in the order of their declaration. -/
  projects : List ProjectEntry
  deriving DecidableEq, Repr

namespace Manifest

/-- A path resolved against a directory, without links and dots when it exists. -/
def resolve (t : FileTree) (base dir : Path) : Path :=
  let joined := base.join dir
  match t.canonicalize joined with
  | .ok canonical => canonical
  | .error _ => joined

/-- The directory that the directories in a manifest are resolved against. -/
def baseOf (t : FileTree) (path : Path) : Path :=
  let parent := match path.parent? with
    | some parent => if parent.text.isEmpty then ⟨"."⟩ else parent
    | none => ⟨"."⟩
  match t.canonicalize parent with
  | .ok canonical => canonical
  | .error _ => parent

/-- The manifest that a text is, when it was read from `path`. -/
def ofText (t : FileTree) (path : Path) (text : String) : Except HostError Manifest :=
  match ManifestText.read? text with
  | none => .error (.parse path)
  | some m =>
    let base := baseOf t path
    .ok {
      path
      solution := { name := m.solutionName, dir := resolve t base m.solutionDir }
      settings := m.settings
      projects := m.projects.map fun p => { p with dir := resolve t base p.dir } }

/-- Reads a manifest file. -/
def load (t : FileTree) (path : Path) : Except HostError Manifest :=
  match t.readText path with
  | .error cause => .error (.read path cause)
  | .ok text => ofText t path text

/-- The names of the projects, in the order of their declaration. -/
def projectNames (m : Manifest) : List String :=
  m.projects.map (·.name)

/-- A project, for one configuration. -/
def info (project : ProjectEntry) (configuration : String) : Except HostError ProjectInfo :=
  match project.buildCommands.lookup configuration with
  | none => .error (.noBuildCommand project.name configuration)
  | some buildCommand =>
    .ok { name := project.name, dir := project.dir, buildCommand, debugger := project.debugger }

/-- The first project with a name. -/
def project (m : Manifest) (name configuration : String) : Except HostError ProjectInfo :=
  match m.projects.find? (·.name = name) with
  | none => .error (.unknownProject name)
  | some project => info project configuration

/-- How deep a project's directory is. -/
def depth (project : ProjectEntry) : Nat :=
  project.dir.components.length

/-- The later of two projects, unless the earlier one is deeper. -/
def deeper (best : Option ProjectEntry) (project : ProjectEntry) : Option ProjectEntry :=
  match best with
  | none => some project
  | some earlier => if depth project < depth earlier then some earlier else some project

/-- The project with the deepest directory that a file is in; the last one among several. -/
def innermost? (projects : List ProjectEntry) (file : Path) : Option ProjectEntry :=
  (projects.filter fun project => file.startsWith project.dir).foldl deeper none

/-- The project a file belongs to. Links in the path of a file that exists are followed first. -/
def projectForFile (m : Manifest) (t : FileTree) (file : Path) (configuration : String) :
    Except HostError ProjectInfo :=
  let file := match t.canonicalize file with
    | .ok canonical => canonical
    | .error _ => file
  match innermost? m.projects file with
  | none => .error (.noOwningProject file)
  | some project => info project configuration

private theorem foldl_deeper_eq_none_iff {best : Option ProjectEntry}
    {projects : List ProjectEntry} :
    projects.foldl deeper best = none ↔ best = none ∧ projects = [] := by
  induction projects generalizing best with
  | nil => simp
  | cons project projects ih =>
    rw [List.foldl_cons, ih]
    cases best <;> simp [deeper]
    split <;> simp

/-- A file belongs to no project exactly when no project directory is a front of its path. -/
theorem innermost?_eq_none_iff {projects : List ProjectEntry} {file : Path} :
    innermost? projects file = none ↔
      ∀ project ∈ projects, file.startsWith project.dir = false := by
  simp [innermost?, foldl_deeper_eq_none_iff]

end Manifest

end SoloBuild
