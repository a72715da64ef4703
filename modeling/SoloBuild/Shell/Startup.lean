import SoloBuild.Shell.Builtin
import SoloBuild.Shell.Excerpt
import SoloBuild.Shell.Redirection
import SoloBuild.Shell.Utility

/-!
# Processes of a script

What parts of a script and the programs that it starts get from the shell, and what comes back from
them.
-/

namespace SoloBuild.Shell

/-! ## Parts of a script -/

/-- The state in which a part of a script begins: signals are ignored as before, but nothing else is
run on them. -/
def State.forked (st : State) : State :=
  { st with
    traps := st.traps.filter fun trap => trap.1 != 0 && trap.2.isEmpty
    jobs := st.jobs.map Job.disowned, signals := [] }

/-- Runs something in a process of its own, and tells how it has ended. It takes a moment until the
process runs. -/
def Run.apart (part : Run Unit) : Run (Option Flow) := fun st =>
  match part { st.forked with clock := st.clock + 1 } with
  | (.ok (), inner) => (.ok none, st.afterPart inner)
  | (.error flow, inner) => (.ok (some flow), st.afterPart inner)

/-- Takes notice of how a process has ended. A signal that has ended it is told about; a process in
which nothing else is to come ends with it. -/
def Run.notice (s : Setting) (ending : Option Flow) : Run Unit := do
  match ending with
  | some .stuck => throw .stuck
  | some (.killed signal) =>
    if s.isLast && (← get).traps.isEmpty then throw (.killed signal)
    else
      modify fun st =>
        let st := match Signal.text? signal with
          | some text => st.tell (text ++ "\n")
          | none => st
        { st with status := 128 + signal }
  | _ => pure ()

/-- How much the first stage of a pipeline that asks for a bounded text asks for. -/
def demandOf (stages : List Command) : Nat :=
  (stages.findSome? fun stage =>
    let words := match stage with
      | .simple _ _ words _ => words.map fun w => String.ofList (Word.plainText w)
      | _ => []
    match words with
    | "head" :: args =>
      match amountTable.read (withPlainCount args) with
      | .ok a => (Amount.ofArguments a).toOption.map (·.count)
      | .error _ => none
    | "read" :: _ => some 1
    | _ => none).getD 0

/-- Starts a command in the background: what it does later is known at once, but its output carries
the time at which it is written. It takes a moment until it runs. -/
def Run.background (s : Setting) (part : Run Unit) : Run Unit := fun st =>
  let id := s.process + 100 + st.jobs.length
  let fresh := { st.forked with clock := st.clock + 1, written := [], jobs := [] }
  let fresh := { fresh with channels := fresh.channels.openOn 0 .null }
  let (result, inner) := part fresh
  let (ended, status) : Nat × Nat := match result with
    | .error .stuck => (inner.clock + 1000 * endless, inner.status)
    | .error (.killed signal) => (inner.clock, 128 + signal)
    | _ => (inner.clock, inner.status % 256)
  let job : Job := {
    id, outlets := fresh.channels.outlets, ended, status, written := inner.written }
  let after := st.afterPart { inner with jobs := inner.jobs ++ st.jobs }
  (.ok (), { after with
    clock := st.clock, status := 0, written := inner.written ++ st.written
    jobs := job :: after.jobs, latestJob := some id })

/-! ## Utilities -/

/-- The state after a utility has done its work. -/
def State.apply (st : State) (e : Effect) (input : List UInt8) : State :=
  let st := { st with files := { e.files with workingDir := st.files.workingDir } }
  let st := if e.input.length < input.length then st.readDown 0 e.input.length else st
  let st := e.written.foldl (fun (st : State) (isError, bytes) =>
    (st.write? (if isError then 2 else 1) bytes).getD st) st
  { st with status := e.status, clock := st.clock + 1000 * e.time }

/-- Runs a utility. -/
def State.runUtility (st : State) (s : Setting) (environment : List (String × String))
    (i : Invocation) : State :=
  match utilities.lookup i.utility with
  | none => { st with status := 127 }
  | some utility =>
    let input := (st.readable? 0 s.demand).getD []
    let readsFile := match st.channels.find? 0 with
      | some (_, .file ..) => true
      | _ => false
    let e : Effect := {
      files := st.files, tool := i.calledAs, environment, input, readsFile, demand := s.demand }
    let e := utility e i.args
    if e.time < endless then st.apply e input
    else { st.apply { e with time := 0 } input with clock := st.clock + 1000 * endless }

/-! ## Shells -/

/-- Where a shell gets its commands from. -/
inductive ScriptSource where
  /-- A text among the arguments. -/
  | text (text : List Char)
  /-- A file that is read to its end. -/
  | file (content : List Char)
  /-- The input, whose rest is the script. -/
  | input
  deriving DecidableEq, Repr

/-- The variables that have a value even if a shell is not told about them. -/
def presetVariables : List (String × String) :=
  [("PATH", searchPath), ("PS1", "# "), ("PS2", "> "), ("PS4", "+ ")]

/-- The variables with which a shell starts. -/
def startVariables (st : State) (parent : Nat) (environment : List (String × String)) :
    Variables :=
  let set : List (String × String) :=
    presetVariables.filter (fun v => (environment.lookup v.1).isNone) ++
      [("PPID", toString parent), ("IFS", " \t\n"), ("OPTIND", "1")]
  let vars := set.foldl (fun vars v => vars.assign v.1 v.2) (Variables.ofEnvironment environment)
  vars.assign "PWD" st.directory true

/-- The name of the working directory that a shell takes over: the one it is told, if that leads
there. -/
def startDirectory (files : FileTree) (environment : List (String × String)) : String :=
  let physical := byteText (Path.ofLocation files.workingDir).text
  match environment.lookup "PWD" with
  | some told =>
    match told.toList.head?, files.find (pathOf told) true with
    | some '/', .ok ⟨place, some .directory⟩ => if place = files.workingDir then told else physical
    | _, _ => physical
  | none => physical

/-- The state in which a shell starts. -/
def State.started (st : State) (parent : Nat) (environment : List (String × String))
    (i : Invocation) : State :=
  let st := st.forked
  let st : State := {
    files := st.files, channels := st.channels, clock := st.clock, written := st.written
    jobs := st.jobs, umask := st.umask, traps := st.traps, name := i.calledAs, line := 0
    directory := startDirectory st.files environment }
  { st with vars := startVariables st parent environment }

/-- What is said about a script that cannot be opened. -/
def scriptText (files : FileTree) (path : String) : Except String (List Char) :=
  match files.find (pathOf path) true with
  | .ok ⟨_, some (.file content _)⟩ => .ok (textOf content.toList)
  | .ok ⟨_, some _⟩ => .ok []
  | .ok ⟨_, none⟩ => .error "No such file"
  | .error e => .error (openingText "No such file" e)

/-- What the arguments of a shell tell: the state in which its script begins, and the script. -/
def State.withArguments (st : State) (args : List String) :
    Except String (State × ScriptSource) := do
  let r ← SwitchReading.readAll true (args.length + 1) { on := st.switches, rest := args }
  let st := { st with switches := r.on }
  let named (st : State) (rest : List String) : State :=
    match rest with
    | name :: parameters => { st with name, parameters }
    | [] => st
  match r.rest with
  | [] =>
    if r.command then throw "-c requires an argument"
    else return ({ st with switches := st.switches.turn "stdin" true }, .input)
  | first :: rest =>
    if r.command then return (named st rest, .text first.toList)
    else if st.isOn "stdin" then return ({ st with parameters := r.rest }, .input)
    else
      match scriptText st.files first with
      | .ok text => return (named st r.rest, .file text)
      | .error reason => throw ("cannot open " ++ first ++ ": " ++ reason)

end SoloBuild.Shell
