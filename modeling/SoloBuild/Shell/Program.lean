import SoloBuild.FileTree.Files
import SoloBuild.Shell.ByteText
import SoloBuild.Text.Splitting

/-!
# Programs

How a command finds its program: by a search path, and through the line that a script names its
interpreter in.
-/

namespace SoloBuild.Shell

open Text

/-- What is started in the end: a utility, the name it is started under, and its arguments. -/
structure Invocation where
  utility : String
  calledAs : String
  args : List String
  deriving DecidableEq, Repr

/-- A blank between the parts of the first line of a script. -/
def isGap (c : Char) : Bool := c == ' ' || c == '\t'

/-- A character that ends the name of an interpreter. -/
def endsInterpreter (c : Char) : Bool := isGap c || c == '\x00'

/-- A text without the gaps at its end. -/
def withoutGapsAtEnd (text : List Char) : List Char := (text.reverse.dropWhile isGap).reverse

/-- The interpreter that a script names, and the option that it gets. Only the first 256 bytes
count. A line that does not end there has to end the name at least; then it goes on with the zeros
that fill the 256 bytes, and blanks at its end are an empty option. -/
def interpreter? (content : List UInt8) : Option (List Char × Option (List Char)) :=
  match textOf (content.take 256) with
  | '#' :: '!' :: body =>
    let line := body.takeWhile fun c => c != '\n' && c != '\x00'
    if body[line.length]? = some '\n' then
      let line := (withoutGapsAtEnd line).dropWhile isGap
      let name := line.takeWhile fun c => !isGap c
      let option := (line.drop name.length).dropWhile isGap
      if name.isEmpty then none else some (name, if option.isEmpty then none else some option)
    else
      let filled := body ++ List.replicate (254 - body.length) '\x00'
      let words := (withoutGapsAtEnd (filled.take 253)).dropWhile isGap
      let name := words.takeWhile fun c => !endsInterpreter c
      let after := words.drop name.length
      if words.isEmpty || !(filled.dropWhile isGap).any endsInterpreter then none
      else if after.head?.any isGap then
        some (name, some ((after.dropWhile isGap).takeWhile (· != '\x00')))
      else some (name, none)
  | _ => none

/-- What can be started. -/
inductive Startable where
  | program (utility : String)
  /-- A script, which is an argument of its interpreter. -/
  | script (interpreter : String) (option : Option String)

/-- What the file at a path is started as. -/
def startable (t : FileTree) (path : String) : Except OsError Startable :=
  match t.find (pathOf path) true with
  | .error e => .error e
  | .ok ⟨_, none⟩ => .error .notFound
  | .ok ⟨_, some (.program utility)⟩ => .ok (.program utility)
  | .ok ⟨_, some (.file content true)⟩ =>
    match interpreter? content.toList with
    | none => .error .invalidExecutable
    -- An empty name leads to the working directory.
    | some ([], _) => .error .permissionDenied
    | some (name, option) => .ok (.script (String.ofList name) (option.map String.ofList))
  | .ok _ => .error .permissionDenied

/-- What is in the way of starting an interpreter when too many scripts interpret each other. -/
def faultAtLimit (t : FileTree) (interpreter : String) : OsError :=
  match t.find (pathOf interpreter) true with
  | .error e => e
  | .ok ⟨_, none⟩ => .notFound
  | .ok ⟨_, some (.program _)⟩ | .ok ⟨_, some (.file _ true)⟩ => .tooManyLinks
  | .ok _ => .permissionDenied

namespace Invocation

/-- What starting the program at a path comes to. A script is started as the program that its first
line names, with the path of the script as an argument. The first argument bounds how many scripts
may interpret each other. -/
def resolve (t : FileTree) :
    Nat → String → String → List String → Except OsError Invocation
  | 0, path, calledAs, args =>
    match startable t path with
    | .error e => .error e
    | .ok (.program utility) => .ok { utility, calledAs, args }
    | .ok (.script interpreter _) => .error (faultAtLimit t interpreter)
  | n + 1, path, calledAs, args =>
    match startable t path with
    | .error e => .error e
    | .ok (.program utility) => .ok { utility, calledAs, args }
    | .ok (.script interpreter option) =>
      resolve t n interpreter interpreter (option.toList ++ path :: args)

end Invocation

/-- How many scripts may interpret each other. -/
def interpreterLimit : Nat := 5

/-- The directories in which programs are looked for, unless a script says otherwise. -/
def searchPath : String := "/usr/local/sbin:/usr/local/bin:/usr/sbin:/usr/bin:/sbin:/bin"

/-- The paths that a name can stand for, in the order of a search path. A name with a separator is a
path; an empty directory of the search path is the working directory. -/
def candidates (dirs name : String) : List String :=
  if name.toList.contains '/' then [name]
  else (splitWhere (· == ':') dirs.toList).map fun dir =>
    if dir.isEmpty then name
    else String.ofList dir ++ (if dir.getLast? = some '/' then "" else "/") ++ name

/-- What is at a path can be started. -/
def isExecutable (t : FileTree) (path : String) : Except OsError Bool :=
  match t.find (pathOf path) true with
  | .ok ⟨_, some (.file _ executable)⟩ => .ok executable
  | .ok ⟨_, some (.program _)⟩ => .ok true
  | .ok ⟨_, some _⟩ => .ok false
  | .ok ⟨_, none⟩ => .error .notFound
  | .error e => .error e

/-- Where the program with a name is. What is in the way of the last file that cannot be started is
told if there is none. -/
def programPath (t : FileTree) (dirs name : String) : Except OsError String :=
  if name.toList.contains '/' then .ok name
  else go .notFound (candidates dirs name)
where
  go (cause : OsError) : List String → Except OsError String
    | [] => .error cause
    | path :: paths =>
      match isExecutable t path with
      | .ok true => .ok path
      | .ok false => go .permissionDenied paths
      | .error .notFound | .error .notADirectory => go cause paths
      | .error e => go e paths

/-- What a name is started as. A file that is neither a script nor known to the system is taken for
shell commands. An error comes with whether there was a file at all. -/
def Invocation.find (t : FileTree) (dirs name : String) (args : List String) :
    Except (Bool × OsError) Invocation :=
  match programPath t dirs name with
  | .error e => .error (false, e)
  | .ok path =>
    let found := match resolve t interpreterLimit path name args with
      | .error .invalidExecutable =>
        resolve t interpreterLimit "/bin/sh" "/bin/sh" (path :: args)
      | found => found
    match found with
    | .ok i => .ok i
    | .error e => .error (true, e)

/-- The status of a program that could not be started. -/
def startStatus (e : OsError) : Nat :=
  if [.notFound, .notADirectory, .tooManyLinks, .nameTooLong].contains e then 127 else 126

/-- The shells among the programs. -/
def shells : List String := ["sh", "dash", "bash"]

end SoloBuild.Shell
