import SoloBuild.Shell.Condition
import SoloBuild.Shell.Excerpt
import SoloBuild.Shell.Fields

/-!
# Utilities for files

The programs that take paths apart, and that make, copy, move, list and remove files.
-/

namespace SoloBuild.Shell

open Text

/-! ## Paths -/

/-- A path without separators at its end. -/
def trimSlashes (path : List Char) : List Char :=
  let trimmed := (path.reverse.dropWhile (· == '/')).reverse
  if trimmed.isEmpty && !path.isEmpty then ['/'] else trimmed

/-- The last name of a path, without an ending. -/
def baseName (path ending : List Char) : List Char :=
  let trimmed := trimSlashes path
  let name := if trimmed = ['/'] then trimmed else (trimmed.reverse.takeWhile (· != '/')).reverse
  if ending.isSuffixOf name && name.length ≠ ending.length then
    name.take (name.length - ending.length)
  else name

/-- A path without its last name. -/
def dirName (path : List Char) : List Char :=
  let front := ((trimSlashes path).reverse.dropWhile (· != '/')).reverse
  if front.isEmpty then ['.'] else trimSlashes front

/-- What `basename` does: the last name of a path, or of several. -/
def runBasename (e : Effect) (args : List String) : Effect :=
  let table : OptionTable := {
    flags := "az", valued := "s", stopsAtOperand := true
    names := [("multiple", 'a'), ("suffix", 's'), ("zero", 'z')] }
  e.withArguments table 1 args fun a =>
    let ending : List Char := if a.has 'z' then ['\x00'] else ['\n']
    let shown (e : Effect) (path suffix : String) : Effect :=
      e.write (bytesOfChars (baseName path.toList suffix.toList ++ ending))
    if a.has 'a' || a.has 's' then
      if a.operands.isEmpty then e.misuse "missing operand" 1
      else a.operands.foldl (fun e path => shown e path ((a.value? 's').getD "")) e
    else
      match a.operands with
      | [] => e.misuse "missing operand" 1
      | [path] => shown e path ""
      | [path, suffix] => shown e path suffix
      | _ :: _ :: extra :: _ => e.misuse ("extra operand '" ++ extra ++ "'") 1

/-- What `dirname` does: paths without their last names. -/
def runDirname (e : Effect) (args : List String) : Effect :=
  e.withArguments { flags := "z", names := [("zero", 'z')] } 1 args fun a =>
    let ending : List Char := if a.has 'z' then ['\x00'] else ['\n']
    if a.operands.isEmpty then e.misuse "missing operand" 1
    else e.write (a.operands.flatMap fun path => bytesOfChars (dirName path.toList ++ ending))

/-- What `readlink` and `realpath` do: the target of a link, or the path without links. -/
def runReadlink (canonical : Bool) (e : Effect) (args : List String) : Effect :=
  let table : OptionTable := {
    flags := "femnqsvz", names := [("canonicalize", 'f'), ("canonicalize-existing", 'e'),
      ("no-newline", 'n')] }
  e.withArguments table 1 args fun a =>
    let follows := canonical || a.has 'f' || a.has 'e' || a.has 'm'
    let ending : String := if a.has 'n' && !canonical then "" else "\n"
    let text? (path : String) : Option String :=
      if follows then
        match e.files.find (pathOf path) true with
        | .ok ⟨place, there⟩ =>
          if there.isNone && a.has 'e' then none
          else some (byteText (Path.ofLocation place).text)
        | .error _ => none
      else
        match e.files.find (pathOf path) false with
        | .ok ⟨_, some (.link target)⟩ => some (byteText target.text)
        | _ => none
    if a.operands.isEmpty then e.misuse "missing operand" 1
    else a.operands.foldl (fun (e : Effect) path =>
      match text? path with
      | some text => e.write (bytesOf (text ++ ending))
      | none =>
        if canonical then e.complain (path ++ ": No such file or directory") 1
        else { e with status := 1 }) e

/-! ## Making files -/

/-- What `touch` does: files that are missing are made, without content. -/
def runTouch (e : Effect) (args : List String) : Effect :=
  let table : OptionTable := {
    flags := "acmfh", valued := "drt"
    names := [("no-create", 'c'), ("date", 'd'), ("reference", 'r')] }
  e.withArguments table 1 args fun a =>
    if a.operands.isEmpty then e.misuse "missing file operand" 1
    else a.operands.foldl (fun (e : Effect) file =>
      match e.files.find (pathOf file) true with
      | .ok ⟨_, some _⟩ => e
      | _ =>
        if a.has 'c' then e
        else
          match e.files.writeBytes (pathOf file) ByteArray.empty with
          | .ok files => { e with files }
          | .error cause =>
            let cause := if cause = .isADirectory then .notFound else cause
            e.complain ("cannot touch '" ++ file ++ "': " ++ errorText cause) 1) e

/-- Makes a directory. -/
def makeDirectory (e : Effect) (dir : String) : Effect :=
  let fail (text : String) : Effect :=
    e.complain ("cannot create directory '" ++ dir ++ "': " ++ text) 1
  match e.files.find (pathOf (String.ofList (trimSlashes dir.toList))) false with
  | .ok ⟨place, none⟩ => { e with files := e.files.put place .directory }
  | .ok _ => fail "File exists"
  | .error cause => fail (errorText cause)

/-- Makes a directory and those that are missing above it; `names` are the names that the path goes
on with. -/
def makeDirectories (e : Effect) (start : List Char) : List (List Char) → Effect
  | [] => e
  | name :: names =>
    let path := start ++ name
    let next := path ++ ['/']
    if name.isEmpty then makeDirectories e next names
    else
      let text := String.ofList path
      let fail (cause : String) : Effect :=
        e.complain ("cannot create directory '" ++ text ++ "': " ++ cause) 1
      match e.files.find (pathOf text) true with
      | .ok ⟨_, some .directory⟩ => makeDirectories e next names
      | .ok ⟨place, none⟩ =>
        makeDirectories { e with files := e.files.put place .directory } next names
      | .ok ⟨_, some _⟩ =>
        fail (if names.all List.isEmpty then "File exists" else "Not a directory")
      | .error cause => fail (errorText cause)

/-- What `mkdir` does. -/
def runMkdir (e : Effect) (args : List String) : Effect :=
  let table : OptionTable := {
    flags := "pv", valued := "m", names := [("parents", 'p'), ("mode", 'm'), ("verbose", 'v')] }
  e.withArguments table 1 args fun a =>
    if a.operands.isEmpty then e.misuse "missing operand" 1
    else a.operands.foldl (fun (e : Effect) dir =>
      let before := e.status
      let made :=
        if a.has 'p' then makeDirectories e [] (splitWhere (· == '/') dir.toList)
        else makeDirectory { e with status := 0 } dir
      let made := { made with status := max before made.status }
      if a.has 'v' && made.log.length = e.log.length then
        made.write (bytesOf (e.tool ++ ": created directory '" ++ dir ++ "'\n"))
      else made) e

/-- What `rmdir` does. -/
def runRmdir (e : Effect) (args : List String) : Effect :=
  let table : OptionTable := { flags := "pv", names := [("parents", 'p')] }
  e.withArguments table 1 args fun a =>
    if a.operands.isEmpty then e.misuse "missing operand" 1
    else a.operands.foldl (fun (e : Effect) dir =>
      let fail (text : String) : Effect :=
        e.complain ("failed to remove '" ++ dir ++ "': " ++ text) 1
      match e.files.find (pathOf dir) false with
      | .ok ⟨place, some .directory⟩ =>
        if baseName dir.toList [] = ['.'] then fail "Invalid argument"
        else if (e.files.below place).isEmpty then { e with files := e.files.erase place }
        else fail "Directory not empty"
      | .ok ⟨_, some _⟩ => fail "Not a directory"
      | .ok ⟨_, none⟩ => fail "No such file or directory"
      | .error cause => fail (errorText cause)) e

/-- What `rm` does. Directories are removed only with all that is in them. -/
def runRm (e : Effect) (args : List String) : Effect :=
  let table : OptionTable := {
    flags := "rRfdiIv"
    names := [("recursive", 'r'), ("force", 'f'), ("dir", 'd'), ("verbose", 'v')] }
  e.withArguments table 1 args fun a =>
    let tree := a.has 'r' || a.has 'R'
    if a.operands.isEmpty then (if a.has 'f' then e else e.misuse "missing operand" 1)
    else a.operands.foldl (fun (e : Effect) path =>
      let fail (text : String) : Effect :=
        e.complain ("cannot remove '" ++ path ++ "': " ++ text) 1
      let told (e : Effect) : Effect :=
        if a.has 'v' then e.write (bytesOf ("removed '" ++ path ++ "'\n")) else e
      let name := baseName path.toList []
      match e.files.find (pathOf path) false with
      | .ok ⟨_, none⟩ => if a.has 'f' then e else fail "No such file or directory"
      | .ok ⟨place, some .directory⟩ =>
        if tree && (name = ['.'] || name = ['.', '.']) then
          e.complain ("refusing to remove '.' or '..' directory: skipping '" ++ path ++ "'") 1
        else if tree then told { e with files := e.files.erase place }
        else if a.has 'd' then
          if (e.files.below place).isEmpty then told { e with files := e.files.erase place }
          else fail "Directory not empty"
        else fail "Is a directory"
      | .ok ⟨place, some _⟩ => told { e with files := e.files.erase place }
      | .error cause =>
        if a.has 'f' && (cause = .notFound || cause = .notADirectory) then e
        else fail (errorText cause)) e

/-! ## Copying and moving -/

/-- The path that something gets in a directory. -/
def inDirectory (dir source : String) : String :=
  let dir := dir.toList
  String.ofList (dir ++ (if dir.getLast? = some '/' then [] else ['/']) ++
    baseName source.toList [])

/-- A tree with everything at and below a place put at another place as well. -/
def withCopy (t : FileTree) (source dest : Location) : FileTree :=
  match t.node? source with
  | none => t
  | some node =>
    let below := t.below source
    below.foldl (fun t (names, node) => t.put (dest ++ names) node) (t.put dest node)

/-- Copies something to a path. -/
def copyTo (e : Effect) (tree : Bool) (source dest : String) : Effect :=
  let fail (text : String) : Effect := e.complain text 1
  match e.files.find (pathOf source) (!tree) with
  | .error cause => fail ("cannot stat '" ++ source ++ "': " ++ errorText cause)
  | .ok ⟨_, none⟩ => fail ("cannot stat '" ++ source ++ "': No such file or directory")
  | .ok ⟨place, some .directory⟩ =>
    if !tree then fail ("-r not specified; omitting directory '" ++ source ++ "'")
    else
      match e.files.find (pathOf (String.ofList (trimSlashes dest.toList))) true with
      | .error cause => fail ("cannot create directory '" ++ dest ++ "': " ++ errorText cause)
      | .ok ⟨target, there⟩ =>
        if target = place then
          fail ("'" ++ source ++ "' and '" ++ dest ++ "' are the same file")
        else if FileTree.isWithin place target then
          fail ("cannot copy a directory, '" ++ source ++ "', into itself, '" ++ dest ++ "'")
        else
          match there with
          | none | some .directory => { e with files := withCopy e.files place target }
          | some _ => fail ("cannot overwrite non-directory '" ++ dest ++ "' with directory '" ++
              source ++ "'")
  | .ok ⟨place, some node⟩ =>
    match e.files.find (pathOf dest) true with
    | .ok ⟨_, some .directory⟩ =>
      fail ("cannot overwrite directory '" ++ dest ++ "' with non-directory '" ++ source ++ "'")
    | .ok ⟨target, some old⟩ =>
      if target = place then
        fail ("'" ++ source ++ "' and '" ++ dest ++ "' are the same file")
      else
        let node := match node, old with
          | .file content _, .file _ executable => Node.file content executable
          | node, _ => node
        { e with files := e.files.put target node }
    | .ok ⟨target, none⟩ => { e with files := e.files.put target node }
    | .error cause =>
      let cause := if dest.toList.getLast? = some '/' then .notADirectory else cause
      fail ("cannot create regular file '" ++ dest ++ "': " ++ errorText cause)

/-- Moves something to a path. -/
def moveTo (e : Effect) (source dest : String) : Effect :=
  let fail (text : String) : Effect := e.complain text 1
  match e.files.find (pathOf (String.ofList (trimSlashes source.toList))) false with
  | .error cause => fail ("cannot stat '" ++ source ++ "': " ++ errorText cause)
  | .ok ⟨_, none⟩ => fail ("cannot stat '" ++ source ++ "': No such file or directory")
  | .ok ⟨place, some node⟩ =>
    let cannot (text : String) : Effect :=
      fail ("cannot move '" ++ source ++ "' to '" ++ dest ++ "': " ++ text)
    let plain := String.ofList (trimSlashes dest.toList)
    match e.files.find (pathOf plain) false with
    | .error cause => cannot (errorText cause)
    | .ok ⟨target, there⟩ =>
      if target = place then fail ("'" ++ source ++ "' and '" ++ dest ++ "' are the same file")
      else if node.isDirectory && FileTree.isWithin place target then
        fail ("cannot move '" ++ source ++ "' to a subdirectory of itself, '" ++ dest ++ "'")
      else if !node.isDirectory && there.isNone && plain != dest then cannot "Not a directory"
      else
        let moved := { e with files := (withCopy (e.files.erase target) place target).erase place }
        match there, node.isDirectory with
        | none, _ => moved
        | some .directory, true =>
          if (e.files.below target).isEmpty then moved else cannot "Directory not empty"
        | some .directory, false =>
          fail ("cannot overwrite directory '" ++ dest ++ "' with non-directory")
        | some _, true =>
          fail ("cannot overwrite non-directory '" ++ dest ++ "' with directory '" ++ source ++ "'")
        | some _, false => moved

/-- Applies something to sources and their destination, or to each source and a path in the
directory that the last operand is. -/
def withDestination (e : Effect) (a : Arguments) (act : Effect → String → String → Effect) :
    Effect :=
  let isDirectory (path : String) : Bool :=
    (nodeAt? e.files path true).any Node.isDirectory && !a.has 'T'
  match a.value? 't', a.operands.reverse with
  | some dir, sources =>
    sources.reverse.foldl (fun e source => act e source (inDirectory dir source)) e
  | none, [] => e.misuse "missing file operand" 1
  | none, [only] => e.misuse ("missing destination file operand after '" ++ only ++ "'") 1
  | none, [dest, source] =>
    act e source (if isDirectory dest then inDirectory dest source else dest)
  | none, dest :: sources =>
    if isDirectory dest then
      sources.reverse.foldl (fun e source => act e source (inDirectory dest source)) e
    else
      match e.files.find (pathOf dest) true with
      | .ok ⟨_, some _⟩ => e.complain ("target '" ++ dest ++ "': Not a directory") 1
      | .ok ⟨_, none⟩ => e.complain ("target '" ++ dest ++ "': No such file or directory") 1
      | .error cause => e.complain ("target '" ++ dest ++ "': " ++ errorText cause) 1

/-- The options of the programs that copy and move. -/
def copyTable : OptionTable := {
  flags := "rRapfnvuTid", valued := "t"
  names := [("recursive", 'r'), ("archive", 'a'), ("force", 'f'), ("no-clobber", 'n'),
    ("verbose", 'v'), ("no-target-directory", 'T'), ("target-directory", 't'), ("update", 'u'),
    ("preserve", 'p')] }

/-- Tells what is copied or moved, if that is asked for. -/
def toldMove (a : Arguments) (act : Effect → String → String → Effect) (e : Effect)
    (source dest : String) : Effect :=
  if a.has 'n' && (nodeAt? e.files dest false).isSome then e
  else
    let after := act e source dest
    if a.has 'v' && after.log.length = e.log.length then
      after.write (bytesOf ((if after.tool = "mv" then "renamed " else "") ++ "'" ++ source ++
        "' -> '" ++ dest ++ "'\n"))
    else after

/-- What `cp` does. -/
def runCp (e : Effect) (args : List String) : Effect :=
  e.withArguments copyTable 1 args fun a =>
    let tree := a.has 'r' || a.has 'R' || a.has 'a'
    withDestination e a (toldMove a fun e source dest => copyTo e tree source dest)

/-- What `mv` does. -/
def runMv (e : Effect) (args : List String) : Effect :=
  e.withArguments copyTable 1 args fun a => withDestination e a (toldMove a moveTo)

/-- Makes a link. -/
def linkTo (symbolic replaces : Bool) (e : Effect) (target name : String) : Effect :=
  let kind := if symbolic then "symbolic" else "hard"
  let fail (text : String) : Effect :=
    e.complain ("failed to create " ++ kind ++ " link '" ++ name ++ "'" ++
      (if symbolic then "" else " => '" ++ target ++ "'") ++ ": " ++ text) 1
  let node : Except String Node :=
    if symbolic then .ok (.link (pathOf target))
    else
      match e.files.find (pathOf target) false with
      | .ok ⟨_, some .directory⟩ => .error (target ++ ": hard link not allowed for directory")
      | .ok ⟨_, some node⟩ => .ok node
      | .ok ⟨_, none⟩ => .error ("failed to access '" ++ target ++ "': No such file or directory")
      | .error cause => .error ("failed to access '" ++ target ++ "': " ++ errorText cause)
  match node, e.files.find (pathOf name) false with
  | .error message, _ => e.complain message 1
  | .ok _, .error cause => fail (errorText cause)
  | .ok node, .ok ⟨place, none⟩ => { e with files := e.files.put place node }
  | .ok node, .ok ⟨place, some old⟩ =>
    if replaces && !old.isDirectory then { e with files := e.files.put place node }
    else fail "File exists"

/-- What `ln` does. -/
def runLn (e : Effect) (args : List String) : Effect :=
  let table : OptionTable := {
    flags := "sfnvTrLP", valued := "t"
    names := [("symbolic", 's'), ("force", 'f'), ("no-dereference", 'n'),
      ("no-target-directory", 'T')] }
  e.withArguments table 1 args fun a =>
    let act := linkTo (a.has 's') (a.has 'f')
    match a.operands with
    | [target] => act e target (inDirectory "." target)
    | [target, name] =>
      let isLink := match nodeAt? e.files name false with
        | some (.link _) => true
        | _ => false
      if a.has 'n' && isLink then act e target name else withDestination e a act
    | _ => withDestination e a act

/-! ## Permissions -/

/-- What a mode says about the permission to execute a file: to give it, to take it away, or
nothing. A text that is no mode has no meaning. -/
def modeChange? (mode : String) : Option (Option Bool) :=
  let cs := mode.toList
  if !cs.isEmpty && cs.all isOctalDigit then
    some (some (((cs.reverse.take 3).any fun c => digitValue c % 2 == 1)))
  else
    (splitWhere (· == ',') cs).foldlM (fun (change : Option Bool) clause =>
      let who := clause.takeWhile fun c => c == 'u' || c == 'g' || c == 'o' || c == 'a'
      let everyone := who.isEmpty || who.contains 'a' ||
        (who.contains 'u' && who.contains 'g' && who.contains 'o')
      match clause.drop who.length with
      | op :: permissions =>
        let isKnown := permissions.all fun c => "rwxXstugo".toList.contains c
        if !isKnown then none
        else if op = '+' then some (if permissions.contains 'x' then some true else change)
        else if op = '-' then
          some (if permissions.contains 'x' && everyone then some false else change)
        else if op = '=' then
          some (if permissions.contains 'x' then some true
            else if everyone then some false else change)
        else none
      | [] => none) none

/-- What `chmod` does with the permission to execute a file. -/
def runChmod (e : Effect) (args : List String) : Effect :=
  -- A mode that takes something away is no option.
  let isMode (arg : String) : Bool :=
    match arg.toList with
    | '-' :: c :: _ => "rwxXst".toList.contains c
    | _ => false
  let args := match args with
    | arg :: _ => if isMode arg then "--" :: args else args
    | [] => []
  let table : OptionTable := {
    flags := "Rvfc", names := [("recursive", 'R'), ("verbose", 'v'), ("silent", 'f')] }
  e.withArguments table 1 args fun a =>
    match a.operands with
    | [] => e.misuse "missing operand" 1
    | [mode] => e.misuse ("missing operand after '" ++ mode ++ "'") 1
    | mode :: files =>
      match modeChange? mode with
      | none => e.misuse ("invalid mode: '" ++ mode ++ "'") 1
      | some change =>
        let changed (t : FileTree) (place : Location) : FileTree :=
          match t.node? place, change with
          | some (.file content _), some executable => t.put place (.file content executable)
          | _, _ => t
        files.foldl (fun (e : Effect) file =>
          match e.files.find (pathOf file) true with
          | .ok ⟨place, some _⟩ =>
            let below := if a.has 'R' then (e.files.below place).map (·.1) else []
            let top := changed e.files place
            { e with files := below.foldl (fun t names => changed t (place ++ names)) top }
          | .ok ⟨_, none⟩ =>
            e.complain ("cannot access '" ++ file ++ "': No such file or directory") 1
          | .error cause =>
            e.complain ("cannot access '" ++ file ++ "': " ++ errorText cause) 1) e

/-! ## Listing -/

/-- What `ls` is asked to show. -/
structure Listing where
  /-- The files whose names begin with a dot, without those of the directories themselves. -/
  hidden : Bool
  /-- The directory itself and the one above it. -/
  links : Bool
  /-- Names from the last to the first. -/
  reversed : Bool
  /-- A sign after directories, and one after other files. -/
  marksDirs : Bool
  marksFiles : Bool
  /-- A line in front of the names in each directory. -/
  titled : Bool
  /-- A line that sums up each directory. -/
  totals : Bool
  /-- The directories in directories. -/
  recursive : Bool

namespace Listing

/-- Names in the order in which they are shown. -/
def inOrder (l : Listing) (names : List String) : List String :=
  let sorted := names.mergeSort fun a b => a ≤ b
  if l.reversed then sorted.reverse else sorted

/-- The line for what is at a path. -/
def line (l : Listing) (t : FileTree) (path name : String) : String :=
  let sign := match nodeAt? t path false with
    | some .directory => if l.marksDirs then "/" else ""
    | some (.link _) => if l.marksFiles then "@" else ""
    | some (.file _ true) | some (.program _) => if l.marksFiles then "*" else ""
    | _ => ""
  name ++ sign ++ "\n"

/-- The names that are shown for a directory. -/
def names (l : Listing) (t : FileTree) (dir : String) : List String :=
  let all := match t.find (pathOf dir) true with
    | .ok ⟨place, some .directory⟩ => namesIn t place
    | _ => []
  let shown := all.filter fun name => l.hidden || name.toList.head? != some '.'
  l.inOrder (if l.links then "." :: ".." :: shown else shown)

/-- The text for directories. The first argument bounds their number. -/
def text (l : Listing) (t : FileTree) : Nat → Bool → List String → String
  | 0, _, _ => ""
  | _ + 1, _, [] => ""
  | n + 1, isFirst, dir :: dirs =>
    let names := l.names t dir
    let title := if l.titled then (if isFirst then "" else "\n") ++ dir ++ ":\n" else ""
    let total := if l.totals then "total 0\n" else ""
    let isInner (name : String) : Bool :=
      name != "." && name != ".." &&
        (nodeAt? t (inDirectory dir name) false).any Node.isDirectory
    let inner := if l.recursive then (names.filter isInner).map (inDirectory dir) else []
    let lines := names.map fun name => l.line t (inDirectory dir name) name
    title ++ total ++ String.join lines ++ text l t n false (inner ++ dirs)

end Listing

/-- What `ls` does: the names in directories, a name on each line. -/
def runLs (e : Effect) (args : List String) : Effect :=
  let table : OptionTable := {
    flags := "1aAdFprCmtSURlhgonsGcuv"
    names := [("all", 'a'), ("almost-all", 'A'), ("directory", 'd'), ("classify", 'F'),
      ("reverse", 'r'), ("recursive", 'R')] }
  e.withArguments table 2 args fun a =>
    let paths := if a.operands.isEmpty then ["."] else a.operands
    let l : Listing := {
      hidden := a.has 'a' || a.has 'A', links := a.has 'a', reversed := a.has 'r'
      marksDirs := a.has 'F' || a.has 'p', marksFiles := a.has 'F'
      titled := 1 < paths.length || a.has 'R', totals := a.has 'l', recursive := a.has 'R' }
    let (e, found) := paths.foldl (fun ((e : Effect), (found : List String)) path =>
      match e.files.find (pathOf path) (!a.has 'd') with
      | .ok ⟨_, some _⟩ => (e, found ++ [path])
      | .ok ⟨_, none⟩ | .error .notFound =>
        (e.complain ("cannot access '" ++ path ++ "': No such file or directory") 2, found)
      | .error cause =>
        (e.complain ("cannot access '" ++ path ++ "': " ++ errorText cause) 2, found)) (e, [])
    let isListed (path : String) : Bool :=
      !a.has 'd' && (nodeAt? e.files path true).any Node.isDirectory
    let files := l.inOrder (found.filter fun path => !isListed path)
    let dirs := l.inOrder (found.filter isListed)
    let e := e.write (bytesOf (String.join (files.map fun path => l.line e.files path path)))
    e.write (bytesOf (l.text e.files (e.files.nodes.length + dirs.length + 1) files.isEmpty dirs))

/-! ## Blocks -/

/-- What `dd` copies: blocks of a size, from a file or the input, to a file or the output. -/
def runDd (e : Effect) (args : List String) : Effect :=
  let known := ["if", "of", "bs", "ibs", "obs", "count", "skip", "seek", "conv", "status", "iflag",
    "oflag"]
  let settings := args.map fun arg =>
    (String.ofList (arg.toList.takeWhile (· != '=')),
      String.ofList ((arg.toList.dropWhile (· != '=')).drop 1))
  let numbers := ["bs", "ibs", "obs", "count", "skip", "seek"]
  match args.find? fun arg => !known.contains (String.ofList (arg.toList.takeWhile (· != '='))) ||
      !arg.toList.contains '=',
    settings.find? fun (key, value) => numbers.contains key && (multiple? value.toList).isNone with
  | some arg, _ => e.misuse ("unrecognized operand '" ++ arg ++ "'") 1
  | none, some (_, value) => e.complain ("invalid number: '" ++ value ++ "'") 1
  | none, none =>
    let number (key : String) : Option Nat :=
      (settings.reverse.lookup key).bind fun value => multiple? value.toList
    let block := ((number "bs").or (number "ibs")).getD 512
    let limit := (number "count").map (block * ·)
    let skipped := block * (number "skip").getD 0
    let unreadable (e : Effect) (file : String) (cause : OsError) : Effect :=
      e.complain ("failed to open '" ++ file ++ "': " ++ errorText cause) 1
    let demand := (limit.map (· + skipped)).getD e.demand
    let (e, content) := operand { e with demand } unreadable ((settings.lookup "if").getD "-")
    match content with
    | none => e
    | some content =>
      let bytes := content.drop skipped
      let bytes := (limit.map bytes.take).getD bytes
      match settings.lookup "of" with
      | none => e.write bytes
      | some file =>
        if file = "/dev/null" then e
        else
          match e.files.writeBytes (pathOf file) ⟨bytes.toArray⟩ with
          | .ok files => { e with files }
          | .error cause => unreadable e file cause

end SoloBuild.Shell
