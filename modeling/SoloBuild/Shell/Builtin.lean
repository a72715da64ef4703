import SoloBuild.Shell.Condition
import SoloBuild.Shell.Fields
import SoloBuild.Shell.Formatted
import SoloBuild.Shell.Program
import SoloBuild.Shell.Signal
import SoloBuild.Shell.Source
import SoloBuild.Shell.State

/-!
# Commands of the shell itself

The commands that write, ask about files, and change the state of the shell they run in: its working
directory, options, variables, parameters, traps and jobs.
-/

namespace SoloBuild.Shell.Builtin

open Text Run

/-- The commands of the shell itself. -/
def names : List String :=
  [".", ":", "[", "alias", "bg", "break", "cd", "chdir", "command", "continue", "echo", "eval",
    "exec", "exit", "export", "false", "fg", "getopts", "hash", "jobs", "kill", "local", "printf",
    "pwd", "read", "readonly", "return", "set", "shift", "test", "times", "trap", "true", "type",
    "ulimit", "umask", "unalias", "unset", "wait"]

/-! ## Arguments -/

/-- The options in front of arguments, and the arguments after them. A letter in the second list
takes a value. -/
def readOptions (s : Setting) (flags valued : String) :
    Nat → List String → Run (List (Char × String) × List String)
  | 0, args => return ([], args)
  | n + 1, args =>
    match args with
    | "--" :: rest => return ([], rest)
    | arg :: rest =>
      match arg.toList with
      | '-' :: c :: letters => do
        let (here, rest) ← readLetters (c :: letters) rest
        let (more, rest) ← readOptions s flags valued n rest
        return (here ++ more, rest)
      | _ => return ([], args)
    | [] => return ([], [])
where
  readLetters : List Char → List String → Run (List (Char × String) × List String)
    | [], rest => return ([], rest)
    | c :: letters, rest =>
      if valued.toList.contains c then
        match letters, rest with
        | [], [] => fail s ("No arg for -" ++ String.ofList [c] ++ " option")
        | [], value :: rest => return ([(c, value)], rest)
        | letters, rest => return ([(c, String.ofList letters)], rest)
      else if flags.toList.contains c then do
        let (more, rest) ← readLetters letters rest
        return ((c, "") :: more, rest)
      else fail s ("Illegal option -" ++ String.ofList [c])

/-- The options in front of arguments, and the arguments after them. -/
def options (s : Setting) (flags valued : String) (args : List String) :
    Run (List (Char × String) × List String) :=
  readOptions s flags valued (args.length + 1) args

/-- The number that an argument is. -/
def number? (text : String) : Option Nat :=
  let isGap (c : Char) : Bool := c == ' ' || ('\t' ≤ c && c ≤ '\r')
  let cs := ((text.toList.dropWhile isGap).reverse.dropWhile isGap).reverse
  let (negative, digits) := match cs with
    | '-' :: digits => (true, digits)
    | '+' :: digits => (false, digits)
    | digits => (false, digits)
  let n := decimal digits
  if digits.isEmpty || !digits.all Char.isDigit || 2147483647 < n || (negative && n != 0) then none
  else some n

/-- The number that an argument has to be. -/
def number (s : Setting) (text : String) : Run Nat :=
  match number? text with
  | some n => return n
  | none => fail s ("Illegal number: " ++ text)

/-- A text as it can be written in a script. -/
def quoted (text : String) : String :=
  "'" ++ "'\"'\"'".intercalate ((splitWhere (· == '\'') text.toList).map String.ofList) ++ "'"

/-- Sets a variable if its name is one. -/
def setVariable (s : Setting) (name value : String) : Run Unit := do
  if isName name.toList then assign s name value else fail s (name ++ ": bad variable name")

/-! ## Writing and asking -/

/-- What `printf` does. -/
def printf (s : Setting) (args : List String) : Run Unit := do
  let (_, args) ← options s "" "" args
  match args with
  | [] => fail s "usage: printf format [arg ...]"
  | format :: args =>
    let f := formatted format args
    modify fun st => f.faults.foldl (fun st fault => st.warn s fault) st
    emit s f.written.reverse.flatten (if f.isBroken then 2 else if f.faults.isEmpty then 0 else 1)

/-- What `test` does. -/
def test (s : Setting) (args : List String) : Run Unit := do
  match Condition.holds (← get).files args with
  | .ok holds => finish (if holds then 0 else 1)
  | .error misuse => fail s misuse.message

/-- What `test` does under its other name. -/
def bracket (s : Setting) (args : List String) : Run Unit :=
  if args.getLast? = some "]" then test s args.dropLast else fail s "missing ]"

/-! ## The working directory -/

/-- A path from the root, with `.` and `..` taken out of its text. A path that begins with two
separators keeps them. -/
def plainPath (dir path : String) : String :=
  let isAbsolute := path.toList.head? == some '/'
  let cs := if isAbsolute then path.toList else dir.toList
  let root := match cs with
    | '/' :: '/' :: '/' :: _ => "/"
    | ['/', '/'] => "//"
    | '/' :: '/' :: _ => "//"
    | _ => "/"
  let names (cs : List Char) : List (List Char) :=
    (splitWhere (· == '/') cs).filter fun name => !name.isEmpty && name != ['.']
  let all := names cs ++ if isAbsolute then [] else names path.toList
  let kept := all.foldl (fun (kept : List (List Char)) name =>
    if name = ['.', '.'] then kept.drop 1 else name :: kept) []
  root ++ "/".intercalate (kept.reverse.map String.ofList)

/-- Changes the working directory. -/
def cd (s : Setting) (args : List String) : Run Unit := do
  let (letters, args) ← options s "LP" "" args
  let st ← get
  let target := args.head?.getD (st.value "HOME")
  let goesBack := target == "-"
  let target := if goesBack then st.value "OLDPWD" else target
  let target := if target.isEmpty then "." else target
  let physical := (letters.reverse.head?.map (·.1)) == some 'P'
  let text := plainPath st.directory target
  match st.files.find (pathOf (if physical then target else text)) true with
  | .ok ⟨place, some .directory⟩ =>
    let now := if physical then byteText (Path.ofLocation place).text else text
    modify fun st =>
      let vars := (st.vars.assign "OLDPWD" st.directory true).assign "PWD" now true
      { st with
        vars, files := { st.files with workingDir := place }, directory := now, status := 0 }
    if goesBack then print s (now ++ "\n")
  | _ => fail s ("can't cd to " ++ target)

/-- Tells the working directory. -/
def pwd (s : Setting) (args : List String) : Run Unit := do
  let (letters, _) ← options s "LP" "" args
  let st ← get
  let physical := (letters.reverse.head?.map (·.1)) == some 'P'
  print s ((if physical then byteText (Path.ofLocation st.files.workingDir).text
    else st.directory) ++ "\n")

/-! ## Parameters and variables -/

/-- Lists variables of a kind, each after the name of a command. -/
def listVariables (s : Setting) (command : String) (isListed : Variable → Bool) : Run Unit := do
  let st ← get
  let listed := (st.vars.bindings.filter fun b => isListed b.2).mergeSort fun a b => a.1 ≤ b.1
  print s (String.join (listed.map fun (name, v) =>
    (if command.isEmpty then "" else command ++ " ") ++ name ++
      (match v.value with
        | some value => "=" ++ quoted value
        | none => "") ++ "\n"))

/-- Sets options and parameters. -/
def set (s : Setting) (args : List String) : Run Unit := do
  let st ← get
  if args.isEmpty then listVariables s "" fun v => v.value.isSome
  else
    match SwitchReading.readAll false (args.length + 1) { on := st.switches, rest := args } with
    | .error message => fail s message
    | .ok r =>
      modify fun st =>
        { st with
          switches := r.on
          parameters := if r.setsParameters then r.rest else st.parameters
          optionPlace := if r.setsParameters then {} else st.optionPlace }
      print s r.told

/-- Drops the first parameters. -/
def shift (s : Setting) (args : List String) : Run Unit := do
  let n ← match args with
    | [] => pure 1
    | text :: _ => number s text
  let st ← get
  if st.parameters.length < n then fail s "can't shift that many"
  else
    modify fun st =>
      { st with parameters := st.parameters.drop n, optionPlace := {}, status := 0 }

/-- The parts of an argument that sets a variable, or only names it. -/
def assignmentOf (arg : String) : String × Option String :=
  let name := arg.toList.takeWhile (· != '=')
  match arg.toList.drop name.length with
  | _ :: value => (String.ofList name, some (String.ofList value))
  | [] => (arg, none)

/-- Does something to the variables that arguments name, after setting those with values. -/
def mark (s : Setting) (change : Variables → String → Variables) (args : List String) :
    Run Unit := do
  args.forM fun arg => do
    let (name, value) := assignmentOf arg
    if !isName name.toList then fail s (name ++ ": bad variable name")
    match value with
    | some value => assign s name value
    | none => pure ()
    modify fun st => { st with vars := change st.vars name }
  finish 0

/-- Exports variables, or makes them constant. -/
def declare (s : Setting) (command : String) (isListed : Variable → Bool)
    (change : Variables → String → Variables) (args : List String) : Run Unit := do
  let (letters, args) ← options s "p" "" args
  if args.isEmpty || !letters.isEmpty then listVariables s command isListed
  else mark s change args

/-- Makes variables local to a function. -/
def makeLocal (s : Setting) (args : List String) : Run Unit := do
  if (← get).vars.frames.isEmpty then fail s "not in a function"
  args.forM fun arg => do
    let (name, value) := assignmentOf arg
    if name != "-" then
      if !isName name.toList then fail s (name ++ ": bad variable name")
      modify fun st => { st with vars := st.vars.hide name }
      match value with
      | some value => assign s name value
      | none => pure ()
  finish 0

/-- Takes away variables or functions. -/
def unset (s : Setting) (args : List String) : Run Unit := do
  let (letters, names) ← options s "vf" "" args
  names.forM fun name => do
    if letters.getLast?.map (·.1) = some 'f' then
      modify fun st => { st with functions := st.functions.filter fun f => f.1 != name }
    else if !isName name.toList then fail s (name ++ ": bad variable name")
    else if (← get).vars.isReadOnly name then fail s (name ++ ": is read only")
    else modify fun st => { st with vars := st.vars.unset name }
  finish 0

/-- Sets or lists texts that stand for names of commands. -/
def setAliases (s : Setting) (args : List String) : Run Unit := do
  let shown (a : String × String) : String := a.1 ++ "=" ++ quoted a.2 ++ "\n"
  if args.isEmpty then
    print s (String.join (((← get).aliases.mergeSort fun a b => a.1 ≤ b.1).map shown))
  else
    finish 0
    args.forM fun arg => do
      match assignmentOf arg, (← get).aliases.lookup arg with
      | (name, some value), _ =>
        modify fun st =>
          { st with aliases := (name, value) :: st.aliases.filter fun a => a.1 != name }
      | _, some value => emit s (bytesOf (shown (arg, value))) (← get).status
      | _, none =>
        modify fun st => { st.tell ("alias: " ++ arg ++ " not found\n") with status := 1 }

/-- Takes away texts that stand for names of commands. -/
def dropAliases (s : Setting) (args : List String) : Run Unit := do
  let (letters, names) ← options s "a" "" args
  finish 0
  if !letters.isEmpty then modify fun st => { st with aliases := [] }
  else
    names.forM fun name =>
      modify fun st =>
        if (st.aliases.lookup name).isSome then
          { st with aliases := st.aliases.filter fun a => a.1 != name }
        else { st.tell ("unalias: " ++ name ++ " not found\n") with status := 1 }

/-! ## Reading -/

/-- What the bytes of a line are cut into, with how many of them are used and whether the line has
an end. What a backslash quotes separates no fields. -/
def lineStretches (raw : Bool) : List UInt8 → Marked → List Stretch × Nat × Bool
  | [], done => ([⟨done.reverse, .separated, false⟩], 0, false)
  | 10 :: _, done => ([⟨done.reverse, .separated, false⟩], 1, true)
  | 0 :: rest, done =>
    let (more, used, ended) := lineStretches raw rest done
    (more, used + 1, ended)
  | 92 :: rest, done =>
    if raw then
      let (more, used, ended) := lineStretches raw rest (('\\', false) :: done)
      (more, used + 1, ended)
    else
      let before : Stretch := ⟨done.reverse, .separated, false⟩
      match rest with
      | 10 :: rest =>
        let (more, used, ended) := lineStretches raw rest []
        (before :: more, used + 2, ended)
      | b :: rest =>
        let (more, used, ended) := lineStretches raw rest []
        let char : Marked := (textOf [b]).map fun c => (c, true)
        (before :: ⟨char, .never, false⟩ :: more, used + 2, ended)
      | [] => ([before], 1, false)
  | b :: rest, done =>
    let char : Marked := (textOf [b]).map fun c => (c, false)
    let (more, used, ended) := lineStretches raw rest (char ++ done)
    (more, used + 1, ended)

/-- Reads a line of the input into variables; the last one gets all that is left of it. -/
def read (s : Setting) (args : List String) : Run Unit := do
  let (letters, names) ← options s "r" "p" args
  if names.isEmpty then fail s "arg count"
  let st ← get
  let input := (st.readable? 0 s.demand).getD []
  let (stretches, used, ended) := lineStretches (letters.any fun l => l.1 == 'r') input []
  modify fun st => st.readDown 0 (input.length - used)
  let fields := fieldsOf st.separators (some names.length) stretches
  let values := fields.map fun field => String.ofList (Marked.chars field)
  (names.zip (values ++ List.replicate names.length "")).forM fun (name, value) =>
    setVariable s name value
  finish (if ended then 0 else 1)

/-- Reads the next option among parameters, or other arguments, into a variable. -/
def getopts (s : Setting) (args : List String) : Run Unit := do
  match args with
  | known :: name :: others =>
    let st ← get
    let params := if others.isEmpty then st.parameters else others
    let place := if params.length + 1 < st.optionPlace.parameter then {} else st.optionPlace
    let silent := known.toList.head? == some ':'
    -- What is left of the argument that is being read, and the number of the argument after it.
    let current : Option (List Char) := place.offset.bind fun offset =>
      if place.parameter ≤ 1 then none
      else (params[place.parameter - 2]?).bind fun arg =>
        if arg.length ≤ offset then none else some (arg.toList.drop offset)
    let start : Option (List Char × Nat) := match current with
      | some rest => some (rest, place.parameter)
      | none =>
        match (params[place.parameter - 1]?).map String.toList with
        | some ('-' :: c :: rest) => some (c :: rest, place.parameter + 1)
        | _ => none
    let done (c : Char) (argument : Option (Option String)) (next : Nat) (left : List Char)
        (status : Nat) : Run Unit := do
      match argument with
      | some (some value) => assign s "OPTARG" value
      | some none => modify fun st => { st with vars := st.vars.unset "OPTARG" }
      | none => pure ()
      modify fun st => { st with vars := st.vars.assign "OPTIND" (toString next) }
      setVariable s name (String.ofList [c])
      let offset : Option Nat :=
        if left.isEmpty then none
        else (params[next - 2]?).map fun arg => arg.length - left.length
      modify fun st => { st with optionPlace := ⟨next, offset⟩ }
      finish status
    match start with
    | none => done '?' none place.parameter [] 1
    | some (['-'], next) =>
      if current.isNone then done '?' none next [] 1 else done '?' none next [] 0
    | some ([], next) => done '?' none next [] 1
    | some (c :: rest, next) =>
      let text := String.ofList [c]
      match (known.toList.dropWhile (· == ':')).dropWhile (· != c) with
      | [] =>
        if silent then done '?' (some (some text)) next rest 0
        else
          modify fun st => st.tell ("Illegal option -" ++ text ++ "\n")
          done '?' (some none) next rest 0
      | _ :: ':' :: _ =>
        match rest, params[next - 1]? with
        | [], none =>
          if silent then done ':' (some (some text)) next [] 0
          else
            modify fun st => st.tell ("No arg for -" ++ text ++ " option\n")
            done '?' (some none) next [] 0
        | [], some value => done c (some (some value)) (next + 1) [] 0
        | rest, _ => done c (some (some (String.ofList rest))) next [] 0
      | _ => done c (some (some "")) next rest 0
  | _ => fail s "Usage: getopts optstring var [arg...]"

/-! ## Signals and jobs -/

/-- Sets what is to be run on signals. -/
def trap (s : Setting) (args : List String) : Run Unit := do
  let (_, args) ← options s "" "" args
  let set (text : Option String) (signals : List String) : Run Unit := do
    finish 0
    let bad := signals.find? fun signal => (Signal.ofText? 0 signal).isNone
    (signals.takeWhile fun signal => (Signal.ofText? 0 signal).isSome).forM fun signal =>
      let number := (Signal.ofText? 0 signal).getD 0
      modify fun st =>
        let others := st.traps.filter fun trap => trap.1 != number
        { st with traps := match text with
            | some text => (number, text) :: others
            | none => others }
    match bad with
    | some signal =>
      modify fun st => { st.tell ("trap: " ++ signal ++ ": bad trap\n") with status := 1 }
    | none => pure ()
  match args with
  | [] =>
    let traps := (← get).traps.mergeSort fun a b => a.1 ≤ b.1
    print s (String.join (traps.map fun (signal, text) =>
      "trap -- " ++ quoted text ++ " " ++ (signalNames[signal]?).getD "" ++ "\n"))
  | [signal] => set none [signal]
  | text :: signals =>
    if !text.isEmpty && text.toList.all Char.isDigit then set none (text :: signals)
    else set (if text = "-" then none else some text) signals

/-- Lets a signal reach the process of the script. -/
def receive (signal : Nat) : Run Unit := do
  let st ← get
  match if signal = 9 ∨ signal = 19 then none else st.traps.lookup signal with
  | some text =>
    if !text.isEmpty then modify fun st => { st with signals := st.signals ++ [signal] }
  | none =>
    match Signal.reaction signal with
    | .nothing => pure ()
    | .ends => throw (.killed signal)
    | .stops => throw .stuck

/-- Sends signals, to the process of the script or to commands in the background. -/
def kill (s : Setting) (args : List String) : Run Unit := do
  let usage {α : Type} : Run α :=
    fail s ("Usage: kill [-s sigspec | -signum | -sigspec] [pid | job]... or\n" ++
      "kill -l [exitstatus]")
  let (lists, signal, targets) ← match args with
    | [] => usage
    | arg :: rest =>
      match arg.toList with
      | '-' :: name =>
        match Signal.ofText? 1 (String.ofList name) with
        | some signal => pure (false, signal, rest)
        | none => do
          let (letters, rest) ← options s "l" "s" args
          let named := letters.filter fun l => l.1 == 's'
          let signal ← match named.getLast? with
            | none => pure 15
            | some (_, name) =>
              match Signal.ofText? 1 name with
              | some signal => pure signal
              | none => fail s ("invalid signal number or name: " ++ name)
          if !named.isEmpty && letters.length != named.length then usage
          pure (letters.length != named.length, signal, rest)
      | _ => pure (false, 15, args)
  if lists then
    match targets with
    | [] => print s (String.join ("0\n" :: (signalNames.drop 1).map (· ++ "\n")))
    | text :: _ =>
      let n ← number s text
      let signal := if 128 < n then n - 128 else n
      match if signal = 0 then none else signalNames[signal]? with
      | some name => print s (name ++ "\n")
      | none => fail s ("invalid signal number or exit status: " ++ text)
  else if targets.isEmpty then usage
  else
    finish 0
    targets.forM fun target => do
      if target.toList.head? = some '%' then fail s ("No such job: " ++ target)
      let isGroup := target.toList.head? == some '-'
      let n ← number s (if isGroup then String.ofList (target.toList.drop 1) else target)
      let st ← get
      let isTarget (job : Job) : Bool := job.id == n && job.id != 0 && !job.reaped
      if n = s.process ∨ n = 0 then
        if signal = 0 then pure ()
        else if s.isPart then modify fun st => { st with signals := st.signals ++ [signal] }
        else receive signal
      else if (st.jobs.any isTarget) && !isGroup then
        if Signal.reaction signal = .ends then
          let killed := st.jobs.filter fun job => isTarget job && st.clock < job.ended
          modify fun st => killed.foldl (State.endJob signal) st
      else complain s "No such process\n" 1

/-- Waits for commands in the background: those that are named, or all of them. The end of a named
one by a signal is told about. -/
def wait (s : Setting) (args : List String) : Run Unit := do
  let (_, args) ← options s "" "" args
  let reap (isWaited : Job → Bool) : Run Unit := modify fun st =>
    let waited := st.jobs.filter isWaited
    { st with
      clock := waited.foldl (fun time job => max time job.ended) st.clock
      jobs := st.jobs.map fun job => if isWaited job then { job with reaped := true } else job }
  if args.isEmpty then
    reap fun job => job.id != 0
    finish 0
  else
    finish 127
    args.forM fun arg => do
      if arg.toList.head? = some '%' then fail s ("No such job: " ++ arg)
      let n ← number s arg
      match (← get).jobs.find? fun job => job.id == n && job.id != 0 with
      | none => finish 127
      | some job =>
        reap fun other => other.id == n
        match if job.reaped || job.status < 129 then none else Signal.text? (job.status - 128) with
        | some text => modify fun st => st.tell (text ++ "\n")
        | none => pure ()
        finish job.status

/-! ## Permissions -/

/-- The permissions that a mode gives, out of those of the user, the group and the others, when so
many are given before. -/
def permissions? (given : Nat) (mode : String) : Option Nat :=
  (splitWhere (· == ',') mode.toList).foldlM (fun given clause =>
    let who := clause.takeWhile fun c => c == 'u' || c == 'g' || c == 'o' || c == 'a'
    let shifts := if who.isEmpty || who.contains 'a' then [6, 3, 0]
      else (if who.contains 'u' then [6] else []) ++ (if who.contains 'g' then [3] else []) ++
        (if who.contains 'o' then [0] else [])
    match clause.drop who.length with
    | op :: letters =>
      if !letters.all fun c => "rwxXst".toList.contains c then none
      else
        let bits := (if letters.contains 'r' then 4 else 0) +
          (if letters.contains 'w' then 2 else 0) + (if letters.contains 'x' then 1 else 0)
        let mask := shifts.foldl (fun m k => m + bits <<< k) 0
        let all := shifts.foldl (fun m k => m + 7 <<< k) 0
        if op = '+' then some (given ||| mask)
        else if op = '-' then some (given &&& (511 ^^^ mask))
        else if op = '=' then some ((given &&& (511 ^^^ all)) ||| mask)
        else none
    | [] => none) given

/-- Sets or tells the permissions that new files do not get. -/
def umask (s : Setting) (args : List String) : Run Unit := do
  let (letters, args) ← options s "S" "" args
  let st ← get
  match args with
  | [] =>
    if letters.isEmpty then
      print s (String.ofList (zeroPadded 4 0 |>.take (4 - (Nat.toDigits 8 st.umask).length)) ++
        String.ofList (Nat.toDigits 8 st.umask) ++ "\n")
    else
      let given := 511 ^^^ st.umask
      let letters (k : Nat) : String :=
        let bits := (given >>> k) % 8
        (if 4 ≤ bits then "r" else "") ++ (if 2 ≤ bits % 4 then "w" else "") ++
          (if bits % 2 = 1 then "x" else "")
      print s ("u=" ++ letters 6 ++ ",g=" ++ letters 3 ++ ",o=" ++ letters 0 ++ "\n")
  | mode :: _ =>
    if mode.toList.head?.any Char.isDigit then
      if mode.toList.all isOctalDigit && numberOf 8 mode.toList < 512 then
        modify fun st => { st with umask := numberOf 8 mode.toList, status := 0 }
      else fail s ("Illegal number: " ++ mode)
    else
      match permissions? (511 ^^^ st.umask) mode with
      | some given => modify fun st => { st with umask := 511 ^^^ given, status := 0 }
      | none => fail s ("Illegal mode: " ++ mode)

/-! ## Names of commands -/

/-- What a name stands for, in short or in words, with a search path. -/
def described? (st : State) (verbose : Bool) (path name : String) : Option String :=
  let said (what : String) : Option String :=
    some (if verbose then name ++ " is " ++ what else name)
  match st.aliases.lookup name with
  | some text =>
    if verbose then said ("an alias for " ++ text)
    else some ("alias " ++ name ++ "=" ++ quoted text)
  | none =>
    if keywords.contains name then said "a shell keyword"
    else if (st.functions.lookup name).isSome && !name.toList.contains '/' then
      said "a shell function"
    else if specialCommands.contains name then said "a special shell builtin"
    else if names.contains name then said "a shell builtin"
    else if name.toList.contains '/' then
      if isThere st.files name.toList then said name else none
    else
      match programPath st.files path name with
      | .ok found => if verbose then said found else some found
      | .error _ => none

/-- Tells what names stand for. -/
def type (s : Setting) (args : List String) : Run Unit := do
  let st ← get
  let lines := args.map fun name => described? st true (st.value "PATH") name
  let texts := (args.zip lines).map fun (name, line) => line.getD (name ++ ": not found")
  emit s (bytesOf (String.join (texts.map (· ++ "\n"))))
    (if lines.all Option.isSome then 0 else 127)

/-- Looks for programs. -/
def hash (s : Setting) (args : List String) : Run Unit := do
  let (_, operands) ← options s "r" "" args
  finish 0
  operands.forM fun name => do
    let st ← get
    if !names.contains name && (programPath st.files (st.value "PATH") name).toOption.isNone then
      complain s (name ++ ": not found") 1

/-- The commands of the shell that run no other commands, by name. -/
def plain? (name : String) : Option (Setting → List String → Run Unit) :=
  match name with
  | ":" | "true" => some fun _ _ => finish 0
  | "false" => some fun _ _ => finish 1
  | "echo" => some fun s args => emit s (echoed args)
  | "printf" => some printf
  | "test" => some test
  | "[" => some bracket
  | "cd" | "chdir" => some cd
  | "pwd" => some pwd
  | "set" => some set
  | "shift" => some shift
  | "export" => some fun s => declare s "export" (·.exported) Variables.exporting
  | "readonly" => some fun s => declare s "readonly" (·.readOnly) Variables.freezing
  | "local" => some makeLocal
  | "unset" => some unset
  | "alias" => some setAliases
  | "unalias" => some dropAliases
  | "read" => some read
  | "getopts" => some getopts
  | "trap" => some trap
  | "kill" => some kill
  | "wait" => some wait
  | "umask" => some umask
  | "type" => some type
  | "hash" => some hash
  | "jobs" => some fun _ _ => finish 0
  | "fg" | "bg" => some fun s _ => fail s "No current job"
  | "times" => some fun s _ => print s (String.join (List.replicate 2 "0m0.000000s 0m0.000000s\n"))
  | "ulimit" => some fun s args => if args.length < 2 then print s "unlimited\n" else finish 0
  | _ => none

end SoloBuild.Shell.Builtin
