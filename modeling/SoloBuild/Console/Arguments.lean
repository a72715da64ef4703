import SoloBuild.Path

/-!
# Command line arguments

The command line names one of four commands with its operands. Options may stand anywhere, in long
form (`--config X`, `--config=X`) or short form (`-c X`, `-cX`, `-c=X`, flags run together), and end
at `--`. The manifest and verbosity may be given before or after the command; what is given after it
counts. Asking for help or for the version ends the reading.
-/

namespace SoloBuild.Console

/-- How the result of a synthesis is shown. -/
inductive ReportFormat where
  | text
  | json
  deriving DecidableEq, Repr

/-- What is to be done. -/
inductive Request where
  | compile (file : Path) (configuration : String)
  | build (projects : List String) (configuration : String) (clean : Bool)
  | debug (project configuration : String)
  | synth (file : Path) (configuration : String) (format : ReportFormat)
  deriving DecidableEq, Repr

/-- A command line that asks for something to be done. -/
structure Invocation where
  manifest : Path
  verbose : Bool
  request : Request
  deriving DecidableEq, Repr

/-- What help can be about. -/
inductive Topic where
  | program
  | command (name : String)
  /-- The command that gives help. -/
  | help
  deriving DecidableEq, Repr

/-- Why nothing is to be done. -/
inductive Stop where
  | help (topic : Topic)
  | version
  /-- The command line is not understood. -/
  | usage
  deriving DecidableEq, Repr

/-- What an option takes. -/
inductive OptionKind where
  | flag
  | text
  /-- A path, which is not empty. -/
  | path
  | format
  /-- The option ends the reading. -/
  | stop (reason : Stop)
  deriving DecidableEq, Repr

/-- An option. -/
structure OptionSpec where
  long : String
  short : Option Char
  kind : OptionKind
  summary : String
  /-- The value when the option is not given, as far as help tells it. -/
  default? : Option String := none
  deriving DecidableEq, Repr

/-- The manifest when none is given. -/
def defaultManifest : String := "fbtools.toml"

/-- The configuration when none is given. -/
def defaultConfiguration : String := "Debug|x64"

namespace OptionSpec

def manifest : OptionSpec :=
  { long := "manifest", short := some 'm', kind := .path, summary := "Path to the host manifest"
    default? := some defaultManifest }

def verbose : OptionSpec :=
  { long := "verbose", short := some 'v', kind := .flag, summary := "Enable verbose output" }

def help (topic : Topic) : OptionSpec :=
  { long := "help", short := some 'h', kind := .stop (.help topic), summary := "Print help" }

def version : OptionSpec :=
  { long := "version", short := some 'V', kind := .stop .version, summary := "Print version" }

def config : OptionSpec :=
  { long := "config", short := some 'c', kind := .text
    summary := "Build configuration, as \x60<configuration>|<platform>\x60"
    default? := some defaultConfiguration }

def format : OptionSpec :=
  { long := "format", short := some 'f', kind := .format, summary := "Output format"
    default? := some "text" }

def clean : OptionSpec :=
  { long := "clean", short := none, kind := .flag, summary := "Rebuild everything" }

end OptionSpec

/-- What operands a command takes. -/
inductive OperandKind where
  | name
  /-- A path, which is not empty. -/
  | path
  deriving DecidableEq, Repr

/-- A command: its options, in the order in which help lists them, and its operands. -/
structure CommandSpec where
  name : String
  summary : String
  options : List OptionSpec
  operand : OperandKind
  /-- The name of the operands. -/
  operandName : String
  operandSummary : String
  /-- The most operands it takes, when that is limited. -/
  most : Option Nat
  deriving DecidableEq, Repr

/-- The commands. -/
def commandSpecs : List CommandSpec :=
  let helpOn (name : String) : OptionSpec := .help (.command name)
  [{ name := "compile", summary := "Compile a single source file through its project's target"
     options := [.config, .manifest, .verbose, helpOn "compile"]
     operand := .path, operandName := "FILE", operandSummary := "Source file to compile"
     most := some 1 },
   { name := "build", summary := "Build several projects in one invocation"
     options := [.config, .manifest, .clean, .verbose, helpOn "build"]
     operand := .name, operandName := "PROJECTS", operandSummary := "Projects to build"
     most := none },
   { name := "debug"
     summary := "Build a project, then start its debugger if the build succeeded"
     options := [.config, .manifest, .verbose, helpOn "debug"]
     operand := .name, operandName := "PROJECT", operandSummary := "Project to build and debug"
     most := some 1 },
   { name := "synth"
     summary := "Write the single-file config for a source file without building"
     options := [.config, .manifest, .format, .verbose, helpOn "synth"]
     operand := .path, operandName := "FILE"
     operandSummary := "Source file to synthesize a config for"
     most := some 1 }]

/-- The command with a name. -/
def commandSpec? (name : String) : Option CommandSpec :=
  commandSpecs.find? (·.name == name)

/-- The options before a command, in the order in which help lists them. -/
def programOptions : List OptionSpec := [.manifest, .verbose, .help .program, .version]

/-- The values that a report format can have. -/
def formatValues : List String := ["text", "json"]

/-- The options and operands read so far. -/
structure Given where
  options : List (String × String) := []
  operands : List String := []
  deriving DecidableEq, Repr

namespace Given

/-- The value of an option. -/
def option? (g : Given) (long : String) : Option String :=
  g.options.lookup long

/-- Adds an option. No option may be given twice, and its value has to be one the option takes. -/
def addOption (g : Given) (o : OptionSpec) (value : String) : Except Stop Given :=
  match o.kind with
  | .stop reason => .error reason
  | kind =>
    let isGood := match kind with
      | .path => !value.isEmpty
      | .format => formatValues.contains value
      | _ => true
    if isGood && (g.option? o.long).isNone then
      .ok { g with options := (o.long, value) :: g.options }
    else .error .usage

/-- Adds an operand, if the command takes one more. -/
def addOperand (g : Given) (spec : CommandSpec) (value : String) : Except Stop Given :=
  let isGood := match spec.operand with
    | .path => !value.isEmpty
    | .name => true
  let hasRoom := match spec.most with
    | some most => g.operands.length < most
    | none => true
  if isGood && hasRoom then .ok { g with operands := g.operands ++ [value] } else .error .usage

end Given

/-- The option takes a value. -/
def OptionSpec.takesValue (o : OptionSpec) : Bool :=
  match o.kind with
  | .text | .path | .format => true
  | .flag | .stop _ => false

/-- Reads the letters of short options that were run together. The answer names the option whose
value is still to come, if there is one. -/
def readLetters (options : List OptionSpec) (g : Given) :
    List Char → Except Stop (Given × Option OptionSpec)
  | [] => .ok (g, none)
  | c :: rest =>
    match options.find? fun o => o.short == some c with
    | none => .error .usage
    | some o =>
      if o.takesValue then
        match rest with
        | [] => .ok (g, some o)
        | '=' :: value => (g.addOption o (String.ofList value)).map fun g => (g, none)
        | value => (g.addOption o (String.ofList value)).map fun g => (g, none)
      else
        match g.addOption o "" with
        | .error stop => .error stop
        | .ok g => readLetters options g rest

/-- Reads a long option. The answer names the option whose value is still to come, if there is
one. -/
def readLong (options : List OptionSpec) (g : Given) (text : List Char) :
    Except Stop (Given × Option OptionSpec) :=
  let name := String.ofList (text.takeWhile (· != '='))
  match options.find? (·.long == name), text.dropWhile (· != '=') with
  | none, _ => .error .usage
  | some o, [] =>
    if o.takesValue then .ok (g, some o) else (g.addOption o "").map fun g => (g, none)
  | some o, _ :: value =>
    if o.takesValue then (g.addOption o (String.ofList value)).map fun g => (g, none)
    else .error .usage

/-- An argument that begins an option. -/
def beginsOption (arg : String) : Bool :=
  match arg.toList with
  | '-' :: _ :: _ => true
  | _ => false

/-- Reads an option that an argument begins. -/
def readOption (options : List OptionSpec) (g : Given) (arg : String) :
    Except Stop (Given × Option OptionSpec) :=
  match arg.toList with
  | '-' :: '-' :: name => readLong options g name
  | cs => readLetters options g (cs.drop 1)

/-- Reads the arguments of a command. `pending` is the option whose value comes next. -/
def readArguments (spec : CommandSpec) (g : Given) (pending : Option OptionSpec) :
    List String → Except Stop Given
  | [] => if pending.isSome then .error .usage else .ok g
  | arg :: rest =>
    if arg = "--" then
      if pending.isSome then .error .usage else rest.foldlM (·.addOperand spec ·) g
    else if beginsOption arg then
      if pending.isSome then .error .usage
      else
        match readOption spec.options g arg with
        | .error stop => .error stop
        | .ok (g, pending) => readArguments spec g pending rest
    else
      let added := match pending with
        | some o => g.addOption o arg
        | none => g.addOperand spec arg
      match added with
      | .error stop => .error stop
      | .ok g => readArguments spec g none rest

/-- The request of a command with its options and operands. -/
def requestOf (name : String) (g : Given) : Except Stop Request :=
  let configuration := (g.option? "config").getD defaultConfiguration
  match name, g.operands with
  | _, [] => .error .usage
  | "compile", file :: _ => .ok (.compile ⟨file⟩ configuration)
  | "build", projects => .ok (.build projects configuration (g.option? "clean").isSome)
  | "debug", project :: _ => .ok (.debug project configuration)
  | "synth", file :: _ =>
    .ok (.synth ⟨file⟩ configuration (if g.option? "format" = some "json" then .json else .text))
  | _, _ => .error .usage

/-- Reads a command line. `outer` is what was given before the command. -/
def readCommandLine (outer : Given) (pending : Option OptionSpec) :
    List String → Except Stop Invocation
  | [] => .error .usage
  | arg :: rest =>
    match pending with
    | some o =>
      if beginsOption arg then .error .usage
      else
        match outer.addOption o arg with
        | .error stop => .error stop
        | .ok outer => readCommandLine outer none rest
    | none =>
      match commandSpec? arg with
      | some spec => do
        let g ← readArguments spec {} none rest
        let request ← requestOf arg g
        let manifest :=
          ((g.option? "manifest").orElse fun _ => outer.option? "manifest").getD defaultManifest
        return {
          manifest := ⟨manifest⟩
          verbose := (g.option? "verbose").isSome || (outer.option? "verbose").isSome
          request }
      | none =>
        if arg = "help" then
          match rest with
          | [] => .error (.help .program)
          | ["help"] => .error (.help .help)
          | [name] => .error (if (commandSpec? name).isSome then .help (.command name) else .usage)
          | _ => .error .usage
        else if arg = "--" || !beginsOption arg then .error .usage
        else
          match readOption programOptions outer arg with
          | .error stop => .error stop
          | .ok (outer, pending) => readCommandLine outer pending rest

/-- The invocation that a command line is. -/
def Invocation.ofArguments (args : List String) : Except Stop Invocation :=
  readCommandLine {} none args

end SoloBuild.Console
