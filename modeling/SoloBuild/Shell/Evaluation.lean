import SoloBuild.Shell.Expansion
import SoloBuild.Shell.Grammar
import SoloBuild.Shell.Startup

/-!
# Running scripts

The evaluation of words and commands. The first argument of each function bounds the depth of
evaluation and the rounds of a loop; a script that reaches the bound counts as one that does not
come to an end.
-/

namespace SoloBuild.Shell

open Text Run

/-- What a simple command is found to be. -/
inductive Target where
  /-- There is no command, only assignments and redirections. -/
  | nothing
  | function (body : Command)
  | builtin (name : String) (special : Bool)
  | program

/-- The name of the command that words begin with, after `command` and its options; no name if more
words are needed to tell. The first argument bounds the number of words. -/
def effectiveName? (isFunction : String → Bool) : Nat → List String → Option (String × List String)
  | 0, _ => none
  | n + 1, "command" :: rest =>
    if isFunction "command" then some ("command", rest)
    else
      match rest.dropWhile (· == "-p") with
      | [] => none
      | ["--"] => none
      | "--" :: name :: rest => some (name, rest)
      | name :: more =>
        if name.toList.head? = some '-' && 1 < name.length then some ("command", rest)
        else effectiveName? isFunction n (name :: more)
  | _ + 1, name :: rest => some (name, rest)
  | _ + 1, [] => none

/-- The commands whose arguments can be assignments. -/
def declaringCommands : List String := ["alias", "export", "local", "readonly"]

/-- Ends the script after a command whose status counts as an error. -/
def checkStatus (s : Setting) : Run Unit := do
  let st ← get
  if st.isOn "errexit" && !s.tested && st.status != 0 then throw .exit

/-- What is made of the control that a round of a loop hands on: whether the loop goes on, or how
control is handed on outside of it. -/
def afterRound : Flow → Bool × Option Flow
  | .leaveLoop n => (false, if n ≤ 1 then none else some (.leaveLoop (n - 1)))
  | .nextRound n => if n ≤ 1 then (true, none) else (false, some (.nextRound (n - 1)))
  | flow => (false, some flow)

/-- Catches an error of the shell: it ends a command, but not the script. -/
def guarded (part : Run Unit) : Run Unit := do
  match ← outcome part with
  | none | some .failed => return ()
  | some flow => throw flow

/-- Writes what a command looks like to where errors went before its redirections. -/
def traceOn (channel : Option Nat) (text : String) : Run Unit := modify fun st =>
  let told := { st with channels := st.channels.point 2 channel }.tell text
  { told with channels := told.channels.point 2 (st.channels.descriptors.lookup 2) }

mutual

/-- The stretches that the pieces of a word become. -/
def expand : Nat → Setting → Manner → Word → Run (List Stretch)
  | 0, _, _, _ => throw .stuck
  | _ + 1, _, _, [] => return []
  | n + 1, s, m, piece :: rest => do
    let front ← expandPiece n s m piece
    return front ++ (← expand n s m rest)

/-- The stretches that a piece of a word becomes. -/
def expandPiece : Nat → Setting → Manner → Piece → Run (List Stretch)
  | 0, _, _, _ => throw .stuck
  | n + 1, s, m, piece => do
    match piece with
    | .text chars quoted =>
      let cut := if m.cutsText && !quoted then .separated else .never
      return [Stretch.ofChars cut quoted chars]
    | .arithmetic expression quoted =>
      let text ← expandText n s expression
      let st ← get
      match do (← Expression.ofText text).value st.value [] with
      | .error e => fail s (e.message text)
      | .ok (value, assigned) =>
        assigned.reverse.forM fun (name, value) => assign s name value
        return [Stretch.ofChars (m.cut quoted) quoted (toString value).toList]
    | .output body quoted =>
      return [Stretch.ofChars (m.cut quoted) quoted (← substitute n s body)]
    | .parameter name use emptyIsMissing word quoted =>
      let st ← get
      let isList := isParameterList name
      let values := if isList then st.parameters else (st.parameter? s name).toList
      let isUnset := !isList && values.isEmpty
      let isMissing := isUnset || (emptyIsMissing && " ".intercalate values == "")
      let value (values : List String) : List Stretch :=
        if isList then [st.listStretch m (name == "@") quoted values]
        else [Stretch.ofChars (m.cut quoted) quoted (String.join values).toList]
      let required : Run Unit :=
        if isUnset && st.isOn "nounset" then fail s (name ++ ": parameter not set") else pure ()
      let present (ss : List Stretch) : List Stretch :=
        if quoted then { chars := [], isQuoted := true } :: ss else ss
      let insert : Run (List Stretch) := do
        let word := Word.withHome (st.vars.value? "HOME") false word
        return present (← expand n s { full := m.full, cutsText := m.full && !quoted } word)
      match use with
      | .unknown => fail s "Bad substitution"
      | .value =>
        required
        return value values
      | .length =>
        required
        let length := (Stretch.text [st.listStretch {} false true values]).length
        return [Stretch.ofChars (m.cut quoted) quoted (toString length).toList]
      | .instead => if isMissing then insert else return present (value values)
      | .alternative => if isMissing then return present [] else insert
      | .assign =>
        if !isMissing then return present (value values)
        else
          let home := st.vars.value? "HOME"
          let text := String.ofList (← expandText n s (Word.withHome home false word))
          if !isName name.toList then fail s (name ++ ": bad variable name")
          assign s name text
          return present (value [text])
      | .require =>
        if !isMissing then return present (value values)
        else
          let reason ← if word.isEmpty then
              pure (if emptyIsMissing then "parameter not set or null" else "parameter not set")
            else do pure (String.ofList (← expandText n s word))
          fail s (name ++ ": " ++ reason)
      | .cutFront longest =>
        required
        if isUnset then return present []
        else
          let pattern ← expandPattern n s word
          return present (value (trimmedValues true (Shell.cutFront longest pattern) values))
      | .cutEnd longest =>
        required
        if isUnset then return present []
        else
          let pattern ← expandPattern n s word
          return present (value (trimmedValues false (Shell.cutEnd longest pattern) values))

/-- The text of a word that is not cut into fields. -/
def expandText : Nat → Setting → Word → Run (List Char)
  | 0, _, _ => throw .stuck
  | n + 1, s, w => do return Stretch.text (← expand n s {} w)

/-- The text of a word that may begin with a home directory. -/
def expandHome : Nat → Setting → Bool → Word → Run String
  | 0, _, _, _ => throw .stuck
  | n + 1, s, inAssignment, w => do
    let home := (← get).vars.value? "HOME"
    return String.ofList (← expandText n s (Word.withHome home inAssignment w))

/-- The pattern that a word is. -/
def expandPattern : Nat → Setting → Word → Run Marked
  | 0, _, _ => throw .stuck
  | n + 1, s, w => do
    let home := (← get).vars.value? "HOME"
    return Stretch.marked (← expand n s {} (Word.withHome home false w))

/-- The fields that a word becomes. -/
def expandFields : Nat → Setting → Word → Run (List String)
  | 0, _, _ => throw .stuck
  | n + 1, s, w => do
    let home := (← get).vars.value? "HOME"
    let stretches ← expand n s { full := true } (Word.withHome home false w)
    let st ← get
    let fields := fieldsOf st.separators none stretches
    if st.isOn "noglob" then return fields.map fun field => String.ofList (Marked.chars field)
    else return fields.flatMap (globbed st.files)

/-- The fields that words become. -/
def expandAll : Nat → Setting → List Word → Run (List String)
  | 0, _, _ => throw .stuck
  | _ + 1, _, [] => return []
  | n + 1, s, w :: ws => do
    let front ← expandFields n s w
    return front ++ (← expandAll n s ws)

/-- The fields of a simple command, of which some are known. As soon as its name is known, it is
known whether arguments that are assignments are cut. -/
def expandCommand : Nat → Setting → List String → List Word → Run (List String)
  | 0, _, _, _ => throw .stuck
  | _ + 1, _, fields, [] => return fields
  | n + 1, s, fields, w :: ws => do
    let st ← get
    let isFunction (name : String) : Bool := (st.functions.lookup name).isSome
    let declares := match effectiveName? isFunction (fields.length + 1) fields with
      | some (name, _) => declaringCommands.contains name && !isFunction name
      | none => false
    let more ← match if declares then assignment? w else none with
      | some (name, value) => do pure [name ++ "=" ++ (← expandHome n s true value)]
      | none => expandFields n s w
    expandCommand n s (fields ++ more) ws

/-- The output of a command, without the line ends at its end. -/
def substitute : Nat → Setting → Command → Run (List Char)
  | 0, _, _ => throw .stuck
  | n + 1, s, body => do
    let st ← get
    let outlet := Outlet.pipe st.channels.next
    let inner := { s with tested := false, loops := 0, isPart := true, isLast := true }
    let ending ← apart do
      modify fun st => { st with channels := st.channels.openOn 1 (.outlet outlet) }
      runToEnd n inner (run n inner body)
    modify fun after => { after with clock := after.closedAt outlet after.clock }
    let bytes := (← get).bytesWritten outlet
    modify fun after => after.forget outlet
    notice { s with isLast := false } ending
    modify fun after => { after with status := st.status, substituted := after.status }
    return ((textOf (bytes.filter (· != 0))).reverse.dropWhile (· == '\n')).reverse

/-- Sets variables. Those that belong to one command come back later. -/
def runAssignments : Nat → Setting → Bool → List (String × Word) → Run (List String)
  | 0, _, _, _ => throw .stuck
  | _ + 1, _, _, [] => return []
  | n + 1, s, isLocal, (name, w) :: rest => do
    let value ← expandHome n s true w
    if isLocal then
      if (← get).vars.isReadOnly name then fail s (name ++ ": is read only")
      modify fun st => { st with vars := (st.vars.hide name).assign name value true }
    else assign s name value
    return (name ++ "=" ++ value) :: (← runAssignments n s isLocal rest)

/-- The targets of redirections. -/
def expandTargets : Nat → Setting → List (Redirect Word) → Run (List (Redirect String))
  | 0, _, _ => throw .stuck
  | _ + 1, _, [] => return []
  | n + 1, s, r :: rs => do
    let target ← match r.kind with
      | .document key =>
        do pure (String.ofList (← expandText n s ((s.documents.lookup key).getD [])))
      | _ => expandHome n s false r.target
    if r.kind = .duplicate && (duplicated? target).isNone then
      modify fun st => { st with line := s.readLine }
      fail s "Syntax error: Bad fd number"
    return { r with target } :: (← expandTargets n s rs)

/-- Carries out redirections. The answer tells why one of them fails. -/
def redirectAll : Nat → List (Redirect String) → Run (Option String)
  | 0, _ => throw .stuck
  | _ + 1, [] => return none
  | n + 1, r :: rs => do
    let st ← get
    let redirected : Except String State := match r.kind with
      | .document _ => .ok (st.openOn r.descriptor (.bytes (bytesOf r.target)))
      | kind => st.redirect r.descriptor kind r.target
    match redirected with
    | .error message => return some message
    | .ok st =>
      set st
      redirectAll n rs

/-- Runs something with redirections. If one of them fails, that is told, and the status is two. The
redirections may stay after it. -/
def withRedirects : Nat → Setting → List (Redirect Word) → Bool → Bool → Run Unit → Run Unit
  | 0, _, _, _, _, _ => throw .stuck
  | n + 1, s, redirects, stays, isSpecial, body => do
    if redirects.isEmpty then body
    else
      let targets ← expandTargets n s redirects
      let before ← get
      let restore (st : State) : State := st.restored before (targets.map (·.descriptor))
      match ← redirectAll n targets with
      | some message =>
        modify fun st => { restore (st.warn s message) with status := 2 }
        if isSpecial then throw .failed
      | none => if stays then body else andFinally body restore

/-- Runs commands up to the end of a text. -/
def runSource : Nat → Setting → Source → Run Unit
  | 0, _, _ => throw .stuck
  | n + 1, s, src => do
    let st ← get
    match Command.next? { src with aliases := st.aliases, replaced := [] } with
    | .error fault =>
      modify fun st => { st with line := fault.line }
      fail s ("Syntax error: " ++ fault.reason)
    | .ok (c, after) =>
      if st.isOn "verbose" then
        let read := src.rest.take (src.rest.length - after.rest.length)
        modify fun st => st.tell (String.ofList read)
      match c with
      | none => return ()
      | some c =>
        run n { s with isLast := false, readLine := after.line } c
        runSource n s after

/-- Runs the text of a script. -/
def runText : Nat → Setting → List Char → Run Unit
  | 0, _, _ => throw .stuck
  | n + 1, s, text => runSource n { s with documents := [] } { rest := text }

/-- Runs the script of a process, and in the end what it leaves to be run then. The status stays as
it is unless that sets one. -/
def runToEnd : Nat → Setting → Run Unit → Run Unit
  | 0, _, _ => throw .stuck
  | n + 1, s, body => do
    let flow ← outcome body
    let st ← get
    match flow, st.traps.lookup 0 with
    | some (.killed signal), _ => throw (.killed signal)
    | some .stuck, _ => throw .stuck
    | _, none => return ()
    | _, some text =>
      modify fun st => { st with traps := st.traps.filter fun trap => trap.1 != 0 }
      let s := { s with tested := false, loops := 0, command := none }
      match ← outcome (runText n s text.toList) with
      | some .exit => return ()
      | some (.killed signal) => throw (.killed signal)
      | some .stuck => throw .stuck
      | some .failed => return ()
      | _ => finish st.status

/-- Runs what is to be run on the signals that have reached the process. -/
def runTraps : Nat → Setting → Run Unit
  | 0, _ => throw .stuck
  | n + 1, s => do
    let st ← get
    if s.isPart then return ()
    else
      match st.signals.mergeSort fun a b => a ≤ b with
      | [] => return ()
      | signal :: more =>
        modify fun st => { st with signals := more }
        match st.traps.lookup signal with
        | some text =>
          runText n { s with tested := false, command := none } text.toList
          finish st.status
        | none =>
          Builtin.receive signal
        runTraps n s

/-- Runs a shell in the process at hand. -/
def runShell : Nat → Setting → List (String × String) → Invocation → Run Unit
  | 0, _, _, _ => throw .stuck
  | n + 1, s, environment, i => do
    modify fun st => st.started s.process environment i
    let s : Setting := { process := s.process + 1, demand := s.demand }
    match (← get).withArguments i.args with
    | .error message =>
      fail s message
    | .ok (st, source) =>
      set { st with line := 1 }
      let body : Run Unit := match source with
        | .text text => runText n s text
        | .file text => runText n s text
        | .input => do
          let st ← get
          let text := textOf ((st.readable? 0 s.demand).getD [])
          modify fun st => st.readDown 0 0
          runText n s text
      runToEnd n s body
      modify fun st => { st with signals := [] }

/-- Runs a program in the process at hand. -/
def runInvocation : Nat → Setting → List (String × String) → Invocation → Run Unit
  | 0, _, _, _ => throw .stuck
  | n + 1, s, environment, i => do
    if shells.contains i.utility then runShell n s environment i
    else if i.utility = "env" then runEnv n s environment i
    else if i.utility = "nohup" then
      match i.args with
      | name :: args => runNamed n s environment i.calledAs name args
      | [] =>
        modify fun st => st.tell (i.calledAs ++ ": missing operand\n")
        finish 125
    else if i.utility = "xargs" then
      let st ← get
      let input := textOf ((st.readable? 0 s.demand).getD [])
      modify fun st => st.readDown 0 0
      let words := ((splitWhere isBlank input).filter (!·.isEmpty)).map String.ofList
      match i.args with
      | name :: args => runNamed n s environment i.calledAs name (args ++ words)
      | [] => runNamed n s environment i.calledAs "echo" words
    else
      modify fun st => st.runUtility s environment i
      if 1000 * endless ≤ (← get).clock then throw .stuck

/-- Runs a program that is looked for on behalf of another one. -/
def runNamed : Nat → Setting → List (String × String) → String → String → List String → Run Unit
  | 0, _, _, _, _, _ => throw .stuck
  | n + 1, s, environment, tool, name, args => do
    let dirs := (environment.lookup "PATH").getD searchPath
    let files := (← get).files
    match if name.isEmpty then .error (false, .notFound)
      else Invocation.find files dirs name args with
    | .ok i => runInvocation n s environment i
    | .error (_, e) =>
      let quoted := if tool = "xargs" then name else "'" ++ name ++ "'"
      modify fun st => st.tell (tool ++ ": " ++ quoted ++ ": " ++ errorText e ++ "\n")
      finish (if e = .notFound then 127 else 126)

/-- Runs a program with other variables. -/
def runEnv : Nat → Setting → List (String × String) → Invocation → Run Unit
  | 0, _, _, _ => throw .stuck
  | n + 1, s, environment, i => do
    let table : OptionTable := {
      flags := "i0v", valued := "uCS", stopsAtOperand := true
      names := [("ignore-environment", 'i'), ("unset", 'u'), ("chdir", 'C')] }
    match table.read (i.args.map fun arg => if arg = "-" then "-i" else arg) with
    | .error message =>
      modify fun st => (st.tell (i.calledAs ++ ": " ++ message ++ "\n")).tell
        ("Try '" ++ i.calledAs ++ " --help' for more information.\n")
      finish 125
    | .ok a =>
      let kept := if a.has 'i' then [] else
        environment.filter fun v => !(a.values 'u').contains v.1
      let isSetting (arg : String) : Bool := arg.toList.contains '='
      let given := (a.operands.takeWhile isSetting).map fun arg =>
        let (name, value) := Builtin.assignmentOf arg
        (name, value.getD "")
      let environment := kept.filter (fun v => (given.lookup v.1).isNone) ++ given
      match a.operands.dropWhile isSetting with
      | name :: args => runNamed n s environment i.calledAs name args
      | [] =>
        modify fun st => st.runUtility s environment
          { utility := "printenv", calledAs := "printenv", args := [] }

/-- Runs a program that a simple command names. -/
def runProgram : Nat → Setting → String → List String → Run Unit
  | 0, _, _, _ => throw .stuck
  | n + 1, s, name, args => do
    let st ← get
    match Invocation.find st.files (st.value "PATH") name args with
    | .error (isThere, e) =>
      complain s (name ++ ": " ++ openingText "not found" e)
        (if isThere then startStatus e else 127)
    | .ok i =>
      let environment := st.vars.environment
      notice s (← apart (runInvocation n { s with isPart := false } environment i))

/-- Lets a program take the place of the script. -/
def replaceProcess : Nat → Setting → String → List String → Run Unit
  | 0, _, _, _ => throw .stuck
  | n + 1, s, name, args => do
    let st ← get
    match Invocation.find st.files (st.value "PATH") name args with
    | .error (_, e) =>
      complain s (name ++ ": " ++ openingText "not found" e) (startStatus e)
      throw .exit
    | .ok i =>
      let environment := st.vars.environment
      -- Nothing is left of the script that could be run in the end.
      modify fun st => { st with traps := st.traps.filter fun trap => trap.2.isEmpty }
      match ← apart (runInvocation n { s with isPart := false } environment i) with
      | some (.killed signal) => throw (.killed signal)
      | some .stuck => throw .stuck
      | _ => throw .exit

/-- Runs a command of the shell itself. -/
def runBuiltin : Nat → Setting → String → List String → Run Unit
  | 0, _, _, _ => throw .stuck
  | n + 1, s, name, args => do
    let s := { s with command := some name }
    let level : Run Nat := do
      let k ← match args with
        | [] => pure 1
        | text :: _ => Builtin.number s text
      if k = 0 then fail s ("Illegal number: " ++ args.headD "") else return min k s.loops
    match name with
    | "exit" =>
      match args with
      | [] => pure ()
      | text :: _ => finish (← Builtin.number s text)
      throw .exit
    | "return" =>
      match args with
      | [] => pure ()
      | text :: _ => finish (← Builtin.number s text)
      throw .return
    | "break" =>
      let k ← level
      finish 0
      if 0 < k then throw (.leaveLoop k)
    | "continue" =>
      let k ← level
      finish 0
      if 0 < k then throw (.nextRound k)
    | "eval" =>
      finish 0
      runText n s (" ".intercalate args).toList
    | "." =>
      let (_, operands) ← Builtin.options s "" "" args
      match operands with
      | [] => finish 0
      | file :: _ =>
        let st ← get
        let isFile (path : String) : Bool :=
          match st.files.find (pathOf path) true with
          | .ok ⟨_, some (.file ..)⟩ => true
          | _ => (State.deviceChannel? path).isSome
        match if file.toList.contains '/' then some file
          else (candidates (st.value "PATH") file).find? isFile with
        | none => fail s (file ++ ": not found")
        | some path =>
          let text := if (State.deviceChannel? path).isSome then .ok []
            else scriptText st.files path
          match text with
          | .error reason => fail s ("cannot open " ++ path ++ ": " ++ reason)
          | .ok text =>
            finish 0
            match ← outcome (runText n { s with command := some path } text) with
            | none | some .return => pure ()
            | some flow => throw flow
    | "exec" =>
      match args with
      | [] => finish 0
      | command :: args => replaceProcess n s command args
    | "command" =>
      let (letters, names) ← Builtin.options s "pvV" "" args
      let st ← get
      match names, letters.filter fun l => l.1 != 'p' with
      | name :: _, (letter, _) :: _ =>
        let path := if letters.any fun l => l.1 == 'p' then searchPath else st.value "PATH"
        match Builtin.described? st (letter == 'V') path name with
        | some text => print s (text ++ "\n")
        | none =>
          emit s (if letter = 'V' then bytesOf (name ++ ": not found\n") else []) 127
      | _, _ => finish 0
    | name =>
      match Builtin.plain? name with
      | some act => act s args
      | none => finish 0

/-- Calls a function. -/
def callFunction : Nat → Setting → Command → List String → Run Unit
  | 0, _, _, _ => throw .stuck
  | n + 1, s, body, args => do
    let before ← get
    modify fun st => { st with parameters := args, optionPlace := {} }
    let restore (st : State) : State :=
      { st with parameters := before.parameters, optionPlace := before.optionPlace }
    let s := { s with loops := 0, isLast := false }
    andFinally (do
      match ← outcome (run n s body) with
      | none | some .return => pure ()
      | some flow => throw flow) restore

/-- Runs a simple command. -/
def runSimple : Nat → Setting → List (String × Word) → List Word → List (Redirect Word) → Run Unit
  | 0, _, _, _, _ => throw .stuck
  | n + 1, s, assignments, words, redirects => do
    let fields ← expandCommand n s [] words
    let before ← get
    let isFunction (name : String) : Bool := (before.functions.lookup name).isSome
    let (name, args) := (effectiveName? isFunction (fields.length + 1) fields).getD
      (fields.headD "", fields.drop 1)
    let isGuarded := fields.head? == some "command" && !isFunction "command"
    let target : Target :=
      if fields.isEmpty then .nothing
      else
        match if isGuarded then none else before.functions.lookup name with
        | some body => .function body
        | none =>
          if Builtin.names.contains name then
            .builtin name (!isGuarded && specialCommands.contains name)
          else .program
    let (isLocal, isSpecial) := match target with
      | .nothing => (false, false)
      | .builtin _ special => (!special, special)
      | _ => (true, false)
    let keeps := match target with
      | .builtin "exec" _ => true
      | _ => false
    let errors := before.channels.descriptors.lookup 2
    let traced (assigned : List String) : Run Unit := do
      let st ← get
      if st.isOn "xtrace" && !(assigned.isEmpty && fields.isEmpty) then
        let mark ← expandQuietly n s (Word.ofQuoted (st.value "PS4"))
        traceOn errors (String.ofList mark ++ " ".intercalate (assigned ++ fields) ++ "\n")
    let act : Run Unit := do
      let assigned ← runAssignments n s isLocal assignments
      traced assigned
      match target with
      | .nothing => finish (← get).substituted
      | .function body => callFunction n s body args
      | .builtin name true => runBuiltin n s name args
      | .builtin name false => guarded (runBuiltin n s name args)
      | .program => runProgram n s name args
    if isLocal then modify fun st => { st with vars := st.vars.opened }
    let close (st : State) : State := if isLocal then { st with vars := st.vars.closed } else st
    andFinally (withRedirects n s redirects keeps isSpecial act) close

/-- The text of a word while commands are not traced. -/
def expandQuietly : Nat → Setting → Word → Run (List Char)
  | 0, _, _ => throw .stuck
  | n + 1, s, w => do
    let st ← get
    modify fun st => { st with switches := st.switches.turn "xtrace" false }
    let text ← expandText n s w
    modify fun after => { after with switches := st.switches, status := st.status }
    return text

/-- Runs the rounds of a loop with a test. -/
def runLoop : Nat → Setting → Bool → Command → Command → Nat → Run Unit
  | 0, _, _, _, _, _ => throw .stuck
  | n + 1, s, untilSuccess, test, body, status => do
    let left (flow : Flow) (status : Nat) : Run Unit := do
      let (goesOn, flow) := afterRound flow
      finish status
      match flow with
      | some flow => throw flow
      | none => if goesOn then runLoop n s untilSuccess test body status
    match ← outcome (run n { s with tested := true } test) with
    | some (.leaveLoop k) => left (.leaveLoop k) status
    | some (.nextRound k) => left (.nextRound k) status
    | some flow => throw flow
    | none =>
      if ((← get).status == 0) == untilSuccess then finish status
      else
        match ← outcome (run n s body) with
        | some (.leaveLoop k) => left (.leaveLoop k) (← get).status
        | some (.nextRound k) => left (.nextRound k) (← get).status
        | some flow => throw flow
        | none => runLoop n s untilSuccess test body (← get).status

/-- Runs the rounds of a loop over values. -/
def runEach : Nat → Setting → String → List String → Command → Nat → Run Unit
  | 0, _, _, _, _, _ => throw .stuck
  | _ + 1, _, _, [], _, status => finish status
  | n + 1, s, name, value :: values, body, _ => do
    assign s name value
    match ← outcome (run n s body) with
    | none => runEach n s name values body (← get).status
    | some flow =>
      match afterRound flow with
      | (true, _) => runEach n s name values body (← get).status
      | (false, some flow) => throw flow
      | (false, none) => pure ()

/-- Runs the first case of which a pattern describes a text. -/
def runCases : Nat → Setting → List Char → List (List Word × Command) → Run Unit
  | 0, _, _, _ => throw .stuck
  | _ + 1, _, _, [] => finish 0
  | n + 1, s, subject, ([], _) :: cases => runCases n s subject cases
  | n + 1, s, subject, (pattern :: patterns, body) :: cases => do
    let marked ← expandPattern n s pattern
    if describes marked subject then
      if body.commands.isEmpty then finish 0 else run n s body
    else runCases n s subject ((patterns, body) :: cases)

/-- Runs the stages of a pipeline, each on the output of the one before. -/
def runStages : Nat → Setting → Nat → List Command → Run Unit
  | 0, _, _, _ => throw .stuck
  | _ + 1, _, _, [] => return ()
  | n + 1, s, demand, stage :: stages => do
    let inner := { s with isPart := true, isLast := true, loops := 0, demand }
    let outlet := Outlet.pipe (← get).channels.next
    let isFinal := stages.isEmpty
    let ending ← apart do
      if !isFinal then
        modify fun st => { st with channels := st.channels.openOn 1 (.outlet outlet) }
      runToEnd n inner (run n inner stage)
    if isFinal then notice { s with isLast := false } ending
    else
      match ending with
      | some .stuck => if demand = 0 then throw .stuck
      | ending => notice { s with isLast := false } ending
      modify fun st => { st with clock := st.closedAt outlet st.clock }
      let bytes := (← get).bytesWritten outlet
      let before := (← get).channels.descriptors.lookup 0
      modify fun st => st.forget outlet |>.openOn 0 (.bytes bytes)
      andFinally (runStages n s demand stages) fun st =>
        { st with channels := st.channels.point 0 before }

/-- Runs a command, and what is to be run on the signals that have arrived meanwhile. -/
def run : Nat → Setting → Command → Run Unit
  | 0, _, _ => throw .stuck
  | n + 1, s, c => do
    if (← get).isOn "noexec" then return ()
    runCommand n s c
    if !(← get).signals.isEmpty then runTraps n s

/-- Runs a command. -/
def runCommand : Nat → Setting → Command → Run Unit
  | 0, _, _ => throw .stuck
  | n + 1, s, c => do
    let inner := { s with isLast := false }
    match c with
    | .simple line assignments words redirects =>
      modify fun st => { st with line, substituted := 0 }
      runSimple n s assignments words redirects
      checkStatus s
    | .redirected line body redirects =>
      modify fun st => { st with line }
      withRedirects n inner redirects false false (run n inner body)
    | .pipeline stages =>
      runStages n s (max s.demand (demandOf stages)) stages
      checkStatus s
    | .negated body =>
      run n { inner with tested := true } body
      modify fun st => { st with status := if st.status = 0 then 1 else 0 }
    | .both first second =>
      run n { inner with tested := true } first
      if (← get).status = 0 then run n s second
    | .either first second =>
      run n { inner with tested := true } first
      if (← get).status != 0 then run n s second
    | .sequence commands => runSequence n s commands
    | .background line body redirects =>
      modify fun st => { st with line }
      let inner := { s with isPart := true, isLast := true, loops := 0, tested := false }
      Run.background s (runToEnd n inner
        (withRedirects n inner redirects true true (run n inner body)))
      checkStatus s
    | .subshell line body redirects =>
      modify fun st => { st with line }
      let inner := { s with isPart := true, isLast := true, loops := 0 }
      let ending ← apart (runToEnd n inner
        (withRedirects n inner redirects true true (run n inner body)))
      notice s ending
      checkStatus s
    | .conditional test body otherwise =>
      run n { inner with tested := true } test
      if (← get).status = 0 then run n s body
      else
        match otherwise with
        | some body => run n s body
        | none => finish 0
    | .loop untilSuccess test body =>
      runLoop n { inner with loops := s.loops + 1 } untilSuccess test body 0
    | .forEach line name words body =>
      modify fun st => { st with line }
      let values ← expandAll n s words
      runEach n { inner with loops := s.loops + 1 } name values body 0
    | .choose line subject cases =>
      modify fun st => { st with line }
      let text ← expandHome n s false subject
      runCases n s text.toList cases
    | .define name body =>
      let body := if s.documents.isEmpty then body else .withDocuments s.documents body
      modify fun st =>
        { st with
          functions := (name, body) :: st.functions.filter fun f => f.1 != name, status := 0 }
    | .withDocuments documents body => run n { s with documents } body

/-- Runs commands one after the other. -/
def runSequence : Nat → Setting → List Command → Run Unit
  | 0, _, _ => throw .stuck
  | _ + 1, _, [] => return ()
  | n + 1, s, [c] => run n s c
  | n + 1, s, c :: cs => do
    run n { s with isLast := false } c
    runSequence n s cs

end

end SoloBuild.Shell
