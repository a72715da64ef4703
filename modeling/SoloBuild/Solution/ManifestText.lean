import SoloBuild.Path
import SoloBuild.Settings
import SoloBuild.Toml.Reader
import SoloBuild.Toml.Record

/-!
# The text of a manifest

A manifest names the solution and its projects, and may give settings that differ from the
conventional ones. What it says is read here as it is written; directories are resolved by the
manifest itself.
-/

namespace SoloBuild

open Toml

namespace Settings

/-- The names of the settings, in order. -/
def names : List String :=
  ["single_file_target", "transient_config", "global_include", "launcher_script",
    "launcher_marker", "unity_field", "copy_step_marker", "intermediate_field",
    "intermediate_segment", "current_dir_placeholder", "kill_grace_ms"]

/-- The settings a value gives; what it does not mention keeps its conventional value. -/
def ofValue? (v : Value) : Option Settings := do
  let fields ← v.asRecord? names
  let text (name default : String) : Option String :=
    fields.optional? Value.asString? name default
  let conventional : Settings := {}
  return {
    singleFileTarget := ← text "single_file_target" conventional.singleFileTarget
    transientConfig := ← text "transient_config" conventional.transientConfig
    globalInclude := ← text "global_include" conventional.globalInclude
    launcherScript := ← text "launcher_script" conventional.launcherScript
    launcherMarker := ← text "launcher_marker" conventional.launcherMarker
    unityField := ← text "unity_field" conventional.unityField
    copyStepMarker := ← text "copy_step_marker" conventional.copyStepMarker
    intermediateField := ← text "intermediate_field" conventional.intermediateField
    intermediateSegment := ← text "intermediate_segment" conventional.intermediateSegment
    currentDirPlaceholder := ← text "current_dir_placeholder" conventional.currentDirPlaceholder
    killGraceMs := ← fields.optional? Value.asWord? "kill_grace_ms" conventional.killGraceMs }

/-- The settings a document gives at its top level. -/
def ofText? (text : String) : Option Settings :=
  (Toml.read? text).bind fun document => ofValue? (.table .header document)

end Settings

/-- What a manifest says of a project. -/
structure ProjectEntry where
  name : String
  dir : Path
  debugger : Option String
  /-- Build command lines, by configuration. -/
  buildCommands : List (String × String)
  deriving DecidableEq, Repr

/-- What a manifest says. -/
structure ManifestText where
  solutionName : String
  solutionDir : Path
  settings : Settings
  projects : List ProjectEntry
  deriving DecidableEq, Repr

/-- A path, as a string. -/
def asPath? (v : Value) : Option Path :=
  v.asString?.map Path.mk

/-- The project a value describes. -/
def ProjectEntry.ofValue? (v : Value) : Option ProjectEntry := do
  let fields ← v.asRecord? ["name", "dir", "debugger", "build_commands"]
  return {
    name := ← fields.required? Value.asString? "name"
    dir := ← fields.required? asPath? "dir"
    debugger := ← fields.optional? (fun v => v.asString?.map some) "debugger" none
    buildCommands := ← fields.optional? Value.asStrings? "build_commands" [] }

namespace ManifestText

/-- The name and the directory of a solution. -/
def solution? (v : Value) : Option (String × Path) := do
  let fields ← v.asRecord? ["dir", "name"]
  let dir ← fields.optional? asPath? "dir" ⟨"."⟩
  let name ← fields.required? Value.asString? "name"
  return (name, dir)

/-- Reads the text of a manifest. -/
def read? (text : String) : Option ManifestText := do
  let document ← Toml.read? text
  let fields ← (Value.table .header document).asRecord? ["solution", "settings", "projects"]
  let (solutionName, solutionDir) ← fields.required? solution? "solution"
  let settings ← fields.optional? Settings.ofValue? "settings" {}
  let projects ←
    fields.optional? (fun v => v.asList?.bind (·.mapM ProjectEntry.ofValue?)) "projects" []
  return { solutionName, solutionDir, settings, projects }

end ManifestText

end SoloBuild
