/-!
# Options of the shell

The options that change how a shell runs its commands. Most have a letter as well as a name.
-/

namespace SoloBuild.Shell

/-- The options by name and letter, in the order in which they are listed. -/
def switchNames : List (String × Option Char) :=
  [("errexit", some 'e'), ("noglob", some 'f'), ("ignoreeof", some 'I'), ("interactive", some 'i'),
    ("monitor", some 'm'), ("noexec", some 'n'), ("stdin", some 's'), ("xtrace", some 'x'),
    ("verbose", some 'v'), ("vi", some 'V'), ("emacs", some 'E'), ("noclobber", some 'C'),
    ("allexport", some 'a'), ("notify", some 'b'), ("nounset", some 'u'),
    ("privileged", some 'p'), ("nolog", none), ("debug", none)]

/-- The names of the options that are on. -/
abbrev Switches := List String

namespace Switches

/-- An option is on. -/
def isOn (on : Switches) (name : String) : Bool := on.contains name

/-- The options with one of them turned on or off. -/
def turn (on : Switches) (name : String) (value : Bool) : Switches :=
  let others := on.filter (· != name)
  if value then name :: others else others

/-- The name of the option with a letter. -/
def ofLetter? (letter : Char) : Option String :=
  (switchNames.find? fun entry => entry.2 == some letter).map (·.1)

/-- There is an option with a name. -/
def isKnown (name : String) : Bool := switchNames.any fun entry => entry.1 == name

/-- The letters of the options that are on. -/
def letters (on : Switches) : String :=
  String.ofList ((switchNames.reverse.filter fun entry => on.isOn entry.1).filterMap (·.2))

/-- The options in a table. -/
def table (on : Switches) : String :=
  "Current option settings\n" ++ String.join (switchNames.map fun (name, _) =>
    name ++ String.ofList (List.replicate (16 - name.length) ' ') ++
      (if on.isOn name then "on" else "off") ++ "\n")

/-- The commands that turn the options on and off as they are. -/
def commands (on : Switches) : String :=
  String.join (switchNames.map fun (name, _) =>
    "set " ++ (if on.isOn name then "-o " else "+o ") ++ name ++ "\n")

end Switches

/-- What arguments say about options. -/
structure SwitchReading where
  on : Switches
  /-- What is to be told about the options. -/
  told : String := ""
  /-- The text of a command follows. -/
  command : Bool := false
  /-- The arguments that are left. -/
  rest : List String
  /-- The arguments that are left are parameters, even if there are none. -/
  setsParameters : Bool := false

namespace SwitchReading

/-- Turns options on or off by their letters. The arguments may go on with names of options. -/
def readLetters (onStart value : Bool) : SwitchReading → List Char → Except String SwitchReading
  | r, [] => .ok r
  | r, 'o' :: letters =>
    match r.rest with
    | [] =>
      let told := if value then r.on.table else r.on.commands
      readLetters onStart value { r with told := r.told ++ told } letters
    | name :: rest =>
      if Switches.isKnown name then
        readLetters onStart value { r with on := r.on.turn name value, rest } letters
      else .error ("Illegal option -o " ++ name)
  | r, letter :: letters =>
    if letter = 'c' ∧ onStart then readLetters onStart value { r with command := true } letters
    else
      match Switches.ofLetter? letter with
      | some name => readLetters onStart value { r with on := r.on.turn name value } letters
      | none => .error ("Illegal option -" ++ String.ofList [letter])

/-- Reads options, when the shell starts or later. The first argument bounds their number. -/
def readAll (onStart : Bool) : Nat → SwitchReading → Except String SwitchReading
  | 0, r => .ok r
  | n + 1, r =>
    match r.rest with
    | [] => .ok r
    | arg :: rest =>
      let after := { r with rest }
      match arg.toList with
      | ['-'] =>
        -- A dash alone ends the options, and later turns two of them off.
        let off := (r.on.turn "xtrace" false).turn "verbose" false
        .ok { after with
          on := if onStart then r.on else off, setsParameters := !rest.isEmpty }
      | ['-', '-'] => .ok { after with setsParameters := true }
      | '-' :: letters => do readAll onStart n (← readLetters onStart true after letters)
      | '+' :: letters => do readAll onStart n (← readLetters onStart false after letters)
      | _ => .ok { r with setsParameters := true }

end SwitchReading

end SoloBuild.Shell
