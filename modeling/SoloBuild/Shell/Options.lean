/-!
# Options of utilities

How utilities read their arguments: letters after a dash, letters that take a value, names after two
dashes, and operands between them. Two dashes alone end the options.
-/

namespace SoloBuild.Shell

/-- The options that a utility knows. -/
structure OptionTable where
  /-- The letters that stand alone. -/
  flags : String := ""
  /-- The letters that take a value. -/
  valued : String := ""
  /-- The names of letters. -/
  names : List (String × Char) := []
  /-- The first operand ends the options. -/
  stopsAtOperand : Bool := false

/-- The arguments of a utility: options with their values, in order, and operands. -/
structure Arguments where
  options : List (Char × String) := []
  operands : List String := []
  deriving DecidableEq, Repr

namespace Arguments

/-- An option is given. -/
def has (a : Arguments) (c : Char) : Bool := a.options.any fun o => o.1 == c

/-- The value of the last use of an option. -/
def value? (a : Arguments) (c : Char) : Option String := a.options.reverse.lookup c

/-- All values of an option, in order. -/
def values (a : Arguments) (c : Char) : List String :=
  a.options.filterMap fun o => if o.1 = c then some o.2 else none

/-- The last given of some options. -/
def lastOf? (a : Arguments) (letters : List Char) : Option Char :=
  (a.options.reverse.find? fun o => letters.contains o.1).map (·.1)

/-- The arguments with an option more. -/
def withOption (a : Arguments) (c : Char) (value : String) : Arguments :=
  { a with options := (c, value) :: a.options }

/-- The arguments with an operand more. -/
def withOperand (a : Arguments) (text : String) : Arguments :=
  { a with operands := text :: a.operands }

end Arguments

namespace OptionTable

/-- Letters after a dash. The value of a letter is the rest of the argument, or the next one. -/
def letters? (table : OptionTable) :
    List Char → List String → Except String (List (Char × String) × List String)
  | [], rest => .ok ([], rest)
  | c :: cs, rest =>
    if table.valued.toList.contains c then
      match cs, rest with
      | [], [] => .error ("option requires an argument -- '" ++ String.ofList [c] ++ "'")
      | [], value :: rest => .ok ([(c, value)], rest)
      | cs, rest => .ok ([(c, String.ofList cs)], rest)
    else if table.flags.toList.contains c then do
      let (more, rest) ← letters? table cs rest
      return ((c, "") :: more, rest)
    else .error ("invalid option -- '" ++ String.ofList [c] ++ "'")

/-- A name after two dashes, which may be cut short, with its value after an equals sign or in the
next argument. -/
def name? (table : OptionTable) (text : List Char) (rest : List String) :
    Except String ((Char × String) × List String) :=
  let name := text.takeWhile (· != '=')
  let value := text.drop name.length
  let isMeant (entry : String × Char) : Bool := name.isPrefixOf entry.1.toList
  match (table.names.find? fun entry => entry.1.toList == name).or (table.names.find? isMeant) with
  | none => .error ("unrecognized option '--" ++ String.ofList text ++ "'")
  | some (_, c) =>
    if table.valued.toList.contains c then
      match value, rest with
      | _ :: value, rest => .ok ((c, String.ofList value), rest)
      | [], value :: rest => .ok ((c, value), rest)
      | [], [] => .error ("option '--" ++ String.ofList text ++ "' requires an argument")
    else .ok ((c, ""), rest)

/-- Reads arguments. The first argument bounds their number. -/
def readAll (table : OptionTable) : Nat → List String → Except String Arguments
  | 0, _ => .ok {}
  | n + 1, args =>
    match args with
    | [] => .ok {}
    | "--" :: rest => .ok { operands := rest }
    | arg :: rest =>
      match arg.toList with
      | '-' :: '-' :: text => do
        let (option, rest) ← table.name? text rest
        return (← readAll table n rest).withOption option.1 option.2
      | '-' :: c :: cs => do
        let (options, rest) ← table.letters? (c :: cs) rest
        let more ← readAll table n rest
        return { more with options := options ++ more.options }
      | _ =>
        if table.stopsAtOperand then .ok { operands := arg :: rest }
        else return (← readAll table n rest).withOperand arg

/-- What the arguments of a utility say. -/
def read (table : OptionTable) (args : List String) : Except String Arguments :=
  table.readAll (args.length + 1) args

end OptionTable

end SoloBuild.Shell
