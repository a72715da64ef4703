import SoloBuild.Console.Arguments
import SoloBuild.Text.Splitting

/-!
# Help

The text that describes the program or one of its commands: what it does, how it is called, and
tables of commands, operands and options. The entries of a table are aligned, and what is said about
them is broken between words where a line gets too long.
-/

namespace SoloBuild.Console

/-- How many characters a line of help may have. -/
def helpWidth : Nat := 100

/-- How many characters words take with a blank between any two. -/
def wordsWidth (words : List String) : Nat :=
  (" ".intercalate words).length

/-- Words on lines, each of which takes as many words as fit into a width after those that it has
already, and at least one. -/
def brokenLines (width : Nat) (line : List String) : List String → List (List String)
  | [] => [line]
  | word :: words =>
    if line.isEmpty || wordsWidth (line ++ [word]) ≤ width then
      brokenLines width (line ++ [word]) words
    else line :: brokenLines width [word] words

/-- An entry of a table: its label, and what is said about it. -/
structure HelpEntry where
  label : String
  summary : String

/-- A table of entries under a heading. -/
def helpTable (heading : String) (entries : List HelpEntry) : String :=
  let widest := entries.foldl (fun widest entry => max widest entry.label.length) 2
  let blanks (n : Nat) : String := String.ofList (List.replicate n ' ')
  let shown (entry : HelpEntry) : String :=
    let words := (Text.splitWhere (· == ' ') entry.summary.toList).map String.ofList
    let lines := (brokenLines (helpWidth - (widest + 4)) [] words).map (" ".intercalate ·)
    "  " ++ entry.label ++ blanks (widest - entry.label.length + 2) ++
      ("\n" ++ blanks (widest + 4)).intercalate lines
  heading ++ ":\n" ++ "\n".intercalate (entries.map shown) ++ "\n"

/-- The entry of an option. -/
def OptionSpec.entry (o : OptionSpec) : HelpEntry :=
  let short := match o.short with
    | some c => "-" ++ String.ofList [c] ++ ", "
    | none => "    "
  let value := if o.takesValue then " <" ++ o.long.toUpper ++ ">" else ""
  let ifMissing := match o.default? with
    | some text => " [default: " ++ text ++ "]"
    | none => ""
  let values := match o.kind with
    | .format => " [possible values: " ++ ", ".intercalate formatValues ++ "]"
    | _ => ""
  { label := short ++ "--" ++ o.long ++ value, summary := o.summary ++ ifMissing ++ values }

/-- What is told about the command that gives help. -/
def helpSummary : String := "Print this message or the help of the given subcommand(s)"

/-- How the operands of a command are shown. -/
def CommandSpec.operandText (spec : CommandSpec) : String :=
  "<" ++ spec.operandName ++ ">" ++ (if spec.most.isSome then "" else "...")

/-- The help about a command. -/
def CommandSpec.helpText (spec : CommandSpec) : String :=
  spec.summary ++ "\n\nUsage: fbt " ++ spec.name ++ " [OPTIONS] " ++ spec.operandText ++ "\n\n" ++
    helpTable "Arguments" [⟨spec.operandText, spec.operandSummary⟩] ++ "\n" ++
    helpTable "Options" (spec.options.map OptionSpec.entry)

/-- The help about the program. -/
def programHelp : String :=
  let commands := commandSpecs.map fun spec => ⟨spec.name, spec.summary⟩
  "fbt - Single-file compilation and build coordination for FASTBuild solutions\n\n" ++
    "Usage: fbt [OPTIONS] <COMMAND>\n\n" ++
    helpTable "Commands" (commands ++ [⟨"help", helpSummary⟩]) ++ "\n" ++
    helpTable "Options" (programOptions.map OptionSpec.entry)

/-- The text of a topic. -/
def Topic.text : Topic → String
  | .program => programHelp
  | .command name => ((commandSpec? name).map CommandSpec.helpText).getD ""
  | .help =>
    helpSummary ++ "\n\nUsage: fbt help [COMMAND]...\n\n" ++
      helpTable "Arguments" [⟨"[COMMAND]...", "Print help for the subcommand(s)"⟩]

end SoloBuild.Console
