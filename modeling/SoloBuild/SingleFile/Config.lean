import SoloBuild.Description.Target
import SoloBuild.Settings
import SoloBuild.Text.Substring

/-!
# Transient configs

A transient config is the description a single-file build runs on: the solution's description
without the projects it includes, followed by the single-file target. It is composed anew for every
request, stands beside the solution's description, and the directory that earlier single-file builds
wrote to is read off the target.
-/

namespace SoloBuild.SingleFile

open Text Description

/-- The name generated files give for their author. -/
def generatorName : String := "fbtools"

/-- The lines without those that mention an include, except where they mention `globalInclude`. -/
def filterIncludes (text globalInclude : List Char) : List Char :=
  joinLines <| (lines text).filter fun line =>
    !occursIn "#include".toList line || occursIn globalInclude line

/-- The rule that sets the target off. -/
def rule : List Char :=
  '/' :: '/' :: List.replicate 113 '='

/-- The notice a transient config begins with. -/
def notice : List Char :=
  ("// Warning! This file was generated by " ++ generatorName ++ " for the\n"
    ++ "// purpose of single file compilation. Any changes made here will be lost!\n"
    ++ "// Navigate to end of this file to see target for single file compilation.\n").toList

/-- The transient config of a target named `name` with text `target`. -/
def compose (solution : Document) (name target : String) (s : Settings) : String :=
  String.ofList <|
    notice ++ filterIncludes solution.text.toList s.globalInclude.toList ++ '\n' :: rule
      ++ "\n// ".toList ++ name.toList ++ " target\n".toList ++ rule ++ "\n\n".toList
      ++ target.toList

/-- Where the transient config of a solution is written: beside the solution's description. -/
def transientPath (solution : Document) (s : Settings) : Path :=
  (solution.path.parent?.getD ⟨"."⟩).join ⟨s.transientConfig⟩

/-- The longest front of a text that ends with `segment` and that a single quote follows. -/
def segmentFront? (segment : List Char) : List Char → Option (List Char)
  | [] => none
  | c :: cs =>
    match segmentFront? segment cs with
    | some front => some (c :: front)
    | none =>
      match afterFront? segment (c :: cs) with
      | some rest => if rest.contains '\'' then some segment else none
      | none => none

/-- The value a line gives for a directory of single-file output: what follows the first single
quote of the line, up to the end of the last occurrence of `segment` before another single quote. -/
def channelDirectory? (segment line : List Char) : Option (List Char) :=
  (upTo? '\'' line).bind fun (_, rest) => segmentFront? segment rest

/-- The directory that single-file builds of a target write to, resolved against `projectDir`. -/
def intermediateDir? (target : List Char) (projectDir : Path) (s : Settings) : Option Path :=
  let relevant := (lines target).filter (occursIn s.intermediateField.toList)
  (relevant.findSome? (channelDirectory? s.channelSegment)).map fun value =>
    projectDir.join ⟨String.ofList <| value.map fun c => if c = s.pathSeparator then '/' else c⟩

end SoloBuild.SingleFile
