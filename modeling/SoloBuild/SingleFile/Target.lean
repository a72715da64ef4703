import SoloBuild.Description.Target
import SoloBuild.Settings
import SoloBuild.SingleFile.InlineField
import SoloBuild.SingleFile.Quoted
import SoloBuild.Text.Substring

/-!
# Single-file targets

A declaration is turned into the target that compiles one file with its options: an object list with
a reserved name, whose body is the declaration's body

- without the lines that ask for aggregated compilation or for copy steps (on the last line, without
  the fields that do);
- with intermediate output moved into a directory of its own;
- with the fields that name the one input file and keep the build local, before the last brace.
-/

namespace SoloBuild.SingleFile

open Text Description

/-- The target that compiles one file. -/
structure Target where
  name : String
  kind : TargetKind
  /-- The declaration the target was made from. -/
  sourceName : String
  /-- The file to compile. -/
  inputFile : Path
  text : String
  deriving DecidableEq, Repr

/-- The line break of a body: a carriage return belongs to it when the body holds one before a
newline. -/
def lineBreak (body : List Char) : List Char :=
  if occursIn ['\r', '\n'] body then ['\r', '\n'] else ['\n']

/-- A line that asks for aggregated compilation or for a copy step. -/
def isDropped (s : Settings) (line : List Char) : Bool :=
  occursIn s.unityField.toList line || occursIn s.copyStepMarker.toList line

/-- A kept line, with intermediate output moved and placeholders of the directory removed. -/
def relocate (s : Settings) (line : List Char) : List Char :=
  let moved :=
    if occursIn s.intermediateField.toList line then
      replaceAll s.intermediateSegment.toList s.channelIntermediateSegment line
    else line
  replaceAll s.currentDirPlaceholder.toList [] moved

/-- The lines of the new body. -/
def keptLines (s : Settings) (lines : List (List Char)) : List (List Char) :=
  let front := lines.dropLast.filter fun line => !isDropped s line
  -- The last line may hold the closing brace, so only fields are cut from it.
  let last := lines.getLast?.toList.map
    (cutInlineFields s.unityField.toList s.copyStepMarker.toList)
  (front ++ last).map (relocate s)

/-- The fields that make a target compile `input` alone and locally. -/
def injectedFields (eol : List Char) (input : Path) : List Char :=
  let field (text : List Char) : List Char := eol ++ "    ".toList ++ text
  eol ++ field (".CompilerInputFiles = ".toList ++ quote input.text.toList)
    ++ field ".AllowCaching = false".toList
    ++ field ".AllowDistribution = false".toList ++ eol

/-- A body with fields added before its last brace, or at its end when it has none. -/
def insertFields (fields body : List Char) : List Char :=
  match splitAtLast '\x7d' body with
  | some (front, back) => trimEnd front ++ fields ++ back
  | none => body ++ fields

/-- The header of the single-file target. -/
def headerText (s : Settings) : List Char :=
  TargetKind.objectList.keyword.toList ++ "( '".toList ++ s.singleFileTarget.toList
    ++ "' )".toList

/-- The text of the target that compiles `input` with the options of a declaration. -/
def targetText (node : TargetNode) (input : Path) (s : Settings) : List Char :=
  let body := joinLines (keptLines s node.bodyLines)
  headerText s ++ insertFields (injectedFields (lineBreak node.body) input) body

/-- The target that compiles `input` with the options of a declaration. -/
def Target.ofNode (node : TargetNode) (input : Path) (s : Settings) : Target :=
  { name := s.singleFileTarget
    kind := .objectList
    sourceName := node.name
    inputFile := input
    text := String.ofList (targetText node input s) }

end SoloBuild.SingleFile
