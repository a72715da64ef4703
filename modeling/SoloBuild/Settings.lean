/-!
# Settings

The reserved names and limits that single-file builds rely on, each with its conventional value, so
that a solution with names of its own can say so. Three derived texts describe where single-file
output lives: the separator of path values, the directory segment of single-file output, and the
segment that replaces the intermediate segment in the fields of a single-file target.
-/

namespace SoloBuild

/-- The names and limits of single-file builds. -/
structure Settings where
  /-- The reserved name of the single-file target, and of the directory its output goes to. -/
  singleFileTarget : String := "CompileSingleFile"
  /-- The file name of the transient config, which is written beside the solution's description. -/
  transientConfig : String := "CompileSingleFile.bff"
  /-- The one included description that a transient config keeps. -/
  globalInclude : String := "globalsettings.bff"
  /-- The script in the solution directory whose first quoted token is the build executable. -/
  launcherScript : String := "FBuild.bat"
  /-- The text that marks a build command line as one that runs the launcher. -/
  launcherMarker : String := "FBuild"
  /-- The field that asks for aggregated compilation units. -/
  unityField : String := ".CompilerInputUnity"
  /-- The text that marks a reference to a copy step. -/
  copyStepMarker : String := "'Copy_"
  /-- What the names of fields that hold intermediate directories begin with. -/
  intermediateField : String := ".Intermediate"
  /-- The segment of a path below which intermediate output lives, separators included. -/
  intermediateSegment : String := "\\int\\"
  /-- The text that stands for the directory of the description in which it is written. -/
  currentDirPlaceholder : String := "\\$_CURRENT_BFF_DIR_$"
  /-- How long a killed process is waited for, in milliseconds. -/
  killGraceMs : UInt64 := 3000
  deriving DecidableEq, Repr

instance : Inhabited Settings := ⟨{}⟩

namespace Settings

/-- The separator of path values: the last character of the intermediate segment. -/
def pathSeparator (s : Settings) : Char :=
  s.intermediateSegment.toList.getLast?.getD '\\'

/-- The directory segment of single-file output: the reserved name between separators. -/
def channelSegment (s : Settings) : List Char :=
  s.pathSeparator :: s.singleFileTarget.toList ++ [s.pathSeparator]

/-- The intermediate segment, extended by the directory of single-file output. -/
def channelIntermediateSegment (s : Settings) : List Char :=
  s.intermediateSegment.toList ++ s.singleFileTarget.toList ++ [s.pathSeparator]

end Settings

end SoloBuild
