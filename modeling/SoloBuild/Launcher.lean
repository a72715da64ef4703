import SoloBuild.Path
import SoloBuild.Text.Blank
import SoloBuild.Text.Lines
import SoloBuild.Text.Substring
import SoloBuild.Text.WordChar

/-!
# Launchers

Projects are built through a launcher script, which names the build executable as its first quoted
token and may give it options. A project's build command line runs that script and names the target
to build after it. This module reads both, and lays out the arguments of the executable.

- `discoverExecutable?_eq_none_iff`: a script names an executable exactly when one of its lines
  holds two double quotes.
-/

namespace SoloBuild

open Text

/-- Why a launcher cannot be used. -/
inductive LauncherError where
  /-- The script at this path names no executable. -/
  | noExecutable (script : Path)
  /-- The command line names no target. -/
  | noTarget (commandLine : String)
  deriving DecidableEq, Repr

/-- The text an error is reported with. -/
def LauncherError.message : LauncherError → String
  | noExecutable script =>
    "launcher script " ++ script.text ++ " does not name a quoted executable"
  | noTarget commandLine =>
    "could not find a target name in build command line: " ++ commandLine

/-- A launcher script's executable, and the options the script itself gives. -/
structure Launcher where
  executable : Path
  options : List String
  deriving DecidableEq, Repr

namespace Launcher

/-- The part of a line between its first two double quotes. -/
def quotedToken? (line : List Char) : Option (List Char) :=
  (upTo? '"' line).bind fun (_, rest) => (upTo? '"' rest).map (·.1)

/-- The first double-quoted token of a script; a token does not span lines. -/
def discoverExecutable? (script : List Char) : Option (List Char) :=
  (splitLines script).findSome? quotedToken?

/-- The text through which a script passes on its own arguments. -/
def forwardedArguments : List Char := ['%', '*']

/-- The options a script gives to its executable: its words that begin with a dash, once the quoted
executable and the forwarded arguments are removed. -/
def optionsOf (script executable : List Char) : List (List Char) :=
  -- The path of the executable may itself hold words that begin with a dash.
  let withoutExecutable := replaceAll ('"' :: executable ++ ['"']) [] script
  let withoutForward := replaceAll forwardedArguments [] withoutExecutable
  (words withoutForward).filter fun word => word.head? == some '-'

/-- Reads a launcher script; a relative executable is resolved against `dir`. -/
def read (script : Path) (text : String) (dir : Path) : Except LauncherError Launcher :=
  match discoverExecutable? text.toList with
  | none => .error (.noExecutable script)
  | some executable =>
    .ok { executable := dir.join ⟨String.ofList executable⟩
          options := (optionsOf text.toList executable).map String.ofList }

/-- A build command line runs the launcher when it holds `marker`. -/
def usesLauncher (commandLine marker : String) : Bool :=
  occursIn marker.toList commandLine.toList

/-- The endings of the scripts and programs that can launch a build. -/
def programEndings : List (List Char) :=
  [".bat".toList, ".cmd".toList, ".exe".toList, ".sh".toList]

/-- A character that a target name may begin with. -/
def isTargetStart (c : Char) : Bool :=
  isWord c || c == '.'

/-- A character of a target name. -/
def isTargetChar (c : Char) : Bool :=
  isTargetStart c || c == '-'

/-- What follows one or more blanks. -/
def afterBlanks? (cs : List Char) : Option (List Char) :=
  match cs with
  | [] => none
  | c :: rest => if isBlank c then some (skipBlanks rest) else none

/-- What follows the flags that the text begins with: words of a dash and more, each with blanks
after it. The first argument bounds the number of flags. -/
def afterFlags : Nat → List Char → List Char
  | 0, cs => cs
  | n + 1, cs =>
    match cs with
    | '-' :: rest =>
      if (rest.takeWhile fun c => !isBlank c).isEmpty then cs
      else match afterBlanks? (rest.dropWhile fun c => !isBlank c) with
        | some rest => afterFlags n rest
        | none => cs
    | _ => cs

/-- The target named after a quoted launcher, when the text begins with its opening quote. -/
def targetHere? (cs : List Char) : Option (List Char) :=
  match cs with
  | '"' :: rest =>
    (upTo? '"' rest).bind fun (program, rest) =>
      if programEndings.any (·.isSuffixOf program) then
        (afterBlanks? rest).bind fun rest =>
          -- Flags may stand between the launcher and the target.
          let target := afterFlags rest.length rest
          match target with
          | c :: _ => if isTargetStart c then some (target.takeWhile isTargetChar) else none
          | [] => none
      else none
  | _ => none

/-- The leftmost target that the text names. -/
def findTarget? : List Char → Option (List Char)
  | [] => none
  | c :: cs =>
    match targetHere? (c :: cs) with
    | some target => some target
    | none => findTarget? cs

/-- The target that a build command line asks the launcher to build. -/
def targetOf (commandLine : String) : Except LauncherError String :=
  match findTarget? commandLine.toList with
  | some target => .ok (String.ofList target)
  | none => .error (.noTarget commandLine)

/-- The arguments that build one target from a transient config. -/
def singleFileArguments (target : String) (config : Path) : List String :=
  [target, "-ide", "-noprogress", "-config", config.text]

/-- The arguments that build several targets from a solution's description. -/
def selectionArguments (options targets : List String) (clean : Bool) (config : Path) :
    List String :=
  options ++ (if clean then ["-clean"] else []) ++ targets
    ++ ["-ide", "-monitor", "-config", config.text]

/-- A script names no executable exactly when no line of it holds two double quotes. -/
theorem discoverExecutable?_eq_none_iff {script : List Char} :
    discoverExecutable? script = none ↔ ∀ line ∈ splitLines script, line.count '"' ≤ 1 := by
  have hline : ∀ line : List Char, quotedToken? line = none ↔ line.count '"' ≤ 1 := by
    intro line
    cases h : upTo? '"' line with
    | none =>
      have : '"' ∉ line := upTo?_eq_none_iff.1 h
      simp [quotedToken?, h, List.count_eq_zero_of_not_mem this]
    | some p =>
      obtain ⟨front, rest⟩ := p
      obtain ⟨rfl, hfront⟩ := upTo?_eq_some h
      have hcount : (front ++ '"' :: rest).count '"' = rest.count '"' + 1 := by
        simp [List.count_append, List.count_eq_zero_of_not_mem hfront]
      simp only [quotedToken?, h, Option.bind_some, Option.map_eq_none_iff, hcount,
        upTo?_eq_none_iff, ← List.count_eq_zero]
      omega
  simp [discoverExecutable?, List.findSome?_eq_none_iff, hline]

end Launcher

end SoloBuild
