import SoloBuild.Shell.ByteText
import SoloBuild.Shell.SedScript

/-!
# Editing lines

What a script of `sed` makes of lines: each is read into a pattern space, goes through the commands,
and is written out at the end unless that is not wanted.
-/

namespace SoloBuild.Shell.Sed

/-- Until where a range of lines goes on. -/
inductive Until where
  | line (n : Nat)
  | address (a : Address)
  deriving Repr

/-- What comes after a line once it is done with. -/
inductive Appended where
  | text (text : List Char)
  | file (name : String)
  deriving DecidableEq, Repr

/-- The state of editing. -/
structure Editor where
  pattern : List Char := []
  held : List Char := []
  number : Nat := 0
  /-- The line that was read ends in a newline. -/
  ended : Bool := true
  rest : List (List UInt8)
  /-- The ranges that lines are in, by the number of the command. -/
  active : List (Nat × Until) := []
  substituted : Bool := false
  /-- The expression that was used last. -/
  used : Option (Regex × Bool) := none
  appended : List Appended := []
  /-- What is written, the latest first. -/
  out : List (List UInt8) := []
  /-- What was written last lacks a newline. -/
  isOpen : Bool := false
  /-- What is written to files, the latest first. -/
  files : List (String × List UInt8) := []

/-- How a script ends with a line. -/
inductive Ending where
  | done
  /-- The line is not written out. -/
  | dropped
  /-- The script begins again with what is left of the line. -/
  | again
  | quit (status : Nat) (shows : Bool)
  deriving DecidableEq, Repr

namespace Editor

/-- Writes bytes as they are. -/
def writeRaw (ed : Editor) (bytes : List UInt8) : Editor :=
  { ed with out := ((if ed.isOpen then [10] else []) ++ bytes) :: ed.out, isOpen := false }

/-- Writes a line, with a newline or without one. -/
def write (ed : Editor) (text : List Char) (newline : Bool := true) : Editor :=
  { ed.writeRaw (bytesOfChars text ++ if newline then [10] else []) with isOpen := !newline }

/-- Writes the pattern space. -/
def print (ed : Editor) : Editor := ed.write ed.pattern ed.ended

/-- Writes what comes after a line. `content` gives the content of a file. -/
def finishLine (content : String → List UInt8) (ed : Editor) : Editor :=
  ed.appended.foldl (fun ed a =>
    match a with
    | .text text => ed.write text
    | .file name => ed.writeRaw (content name)) { ed with appended := [] }

/-- Reads the next line. -/
def read (ed : Editor) (line : List UInt8) (rest : List (List UInt8)) : Editor :=
  { ed with
    pattern := textOf (chomp line), rest, number := ed.number + 1
    ended := line.getLast? == some 10 }

/-- An expression, or the one used last. -/
def expression? (ed : Editor) (r : Option Regex) (anyCase : Bool) : Option (Regex × Bool) :=
  match r with
  | some r => some (r, anyCase)
  | none => ed.used

/-- An address means the line. -/
def isAt (ed : Editor) : Address → Bool × Editor
  | .line n => (n == ed.number, ed)
  | .step first every =>
    (if every = 0 then ed.number == first
      else first ≤ ed.number && (ed.number - first) % every == 0, ed)
  | .last => (ed.rest.isEmpty, ed)
  | .matching r anyCase =>
    match ed.expression? r anyCase with
    | none => (false, ed)
    | some (r, anyCase) =>
      ((r.find? anyCase ed.pattern).isSome, { ed with used := some (r, anyCase) })

/-- The range of a command is not open any more. -/
def close (ed : Editor) (index : Nat) : Editor :=
  { ed with active := ed.active.filter fun entry => entry.1 != index }

/-- The range of a command is open. -/
def openUntil (ed : Editor) (index : Nat) (u : Until) : Editor :=
  { ed with active := (index, u) :: ed.active }

/-- A command is for the line, apart from being negated. -/
def isSelected (ed : Editor) (index : Nat) (s : Selector) : Bool × Editor :=
  match s.first, s.last with
  | none, _ => (true, ed)
  | some first, none => ed.isAt first
  | some first, some last =>
    match ed.active.lookup index with
    | some (.line n) => (ed.number ≤ n, if n ≤ ed.number then ed.close index else ed)
    | some (.address a) =>
      let (isLast, ed) := ed.isAt a
      (true, if isLast then ed.close index else ed)
    | none =>
      let (begins, ed) := ed.isAt first
      if !begins then (false, ed)
      else
        let upTo (n : Nat) : Editor := if ed.number < n then ed.openUntil index (.line n) else ed
        match last with
        | .address (.line n) => (true, upTo n)
        | .address a => (true, ed.openUntil index (.address a))
        | .after lines => (true, upTo (ed.number + lines))
        | .multiple n =>
          (true, if n = 0 then ed else upTo ((ed.number + n - 1) / n * n))

end Editor

/-! ## Substitutions -/

/-- How letters change their case: all that follow, and the next one. -/
structure Letters where
  all : Option Bool := none
  next : Option Bool := none

/-- A text with its letters changed. -/
def Letters.apply (l : Letters) : List Char → List Char × Letters
  | [] => ([], l)
  | c :: cs =>
    let upper := l.next.or l.all
    let c := match upper with
      | some true => c.toUpper
      | some false => c.toLower
      | none => c
    let (more, l) := apply { l with next := none } cs
    (c :: more, l)

/-- What the parts of a replacement stand for. -/
def replaced (m : Regex.Match) : Letters → List ReplacementPart → List Char
  | _, [] => []
  | l, .letters upper true :: parts => replaced m { l with next := upper } parts
  | l, .letters upper false :: parts => replaced m { l with all := upper, next := none } parts
  | l, .char c :: parts =>
    let (text, l) := l.apply [c]
    text ++ replaced m l parts
  | l, .group n :: parts =>
    let (text, l) := l.apply (if n = 0 then m.whole else (m.after.groups.lookup n).getD [])
    text ++ replaced m l parts

/-- A text with matches replaced, and whether there was one. The first argument bounds the number of
matches; `number` counts down to the first match that is replaced. An empty match does not count
right after another match. -/
def substituted (r : Regex) (anyCase all : Bool) (parts : List ReplacementPart) :
    Nat → Nat → Bool → Option Char → List Char → List Char × Bool
  | 0, _, _, _, text => (text, false)
  | n + 1, number, afterMatch, before, text =>
    match r.findFrom? anyCase before text with
    | none => (text, false)
    | some m =>
      let isVoid := m.whole.isEmpty && m.before.isEmpty && afterMatch
      let (next, rest) : List Char × List Char :=
        if m.whole.isEmpty then (m.after.rest.take 1, m.after.rest.drop 1) else ([], m.after.rest)
      let isDone := m.whole.isEmpty && m.after.rest.isEmpty
      let last := (next.getLast?.or m.after.before)
      let goOn (number : Nat) : List Char × Bool :=
        if isDone then ([], false)
        else substituted r anyCase all parts n number (!m.whole.isEmpty) last rest
      if isVoid || 1 < number then
        let (more, changed) := goOn (if isVoid then number else number - 1)
        (m.before ++ m.whole ++ next ++ more, changed)
      else
        let new := replaced m {} parts
        if all then (m.before ++ new ++ next ++ (goOn 1).1, true)
        else (m.before ++ new ++ m.after.rest, true)

/-- A text as `l` shows it: with escapes, and a dollar at its end. -/
def listed (text : List Char) : List Char :=
  wrapped 69 (text.map shown) ++ ['$']
where
  shown (c : Char) : List Char :=
    let octal := Text.zeroPadded 3 (Text.decimal (Nat.toDigits 8 c.toNat))
    match [('\\', '\\'), ('\x07', 'a'), ('\x08', 'b'), ('\x0c', 'f'), ('\n', 'n'), ('\r', 'r'),
      ('\t', 't'), ('\x0b', 'v')].lookup c with
    | some letter => ['\\', letter]
    | none => if ' ' ≤ c && c ≤ '~' then [c] else '\\' :: octal
  wrapped (left : Nat) : List (List Char) → List Char
    | [] => []
    | c :: cs =>
      if left < c.length then '\\' :: '\n' :: c ++ wrapped (69 - c.length) cs
      else c ++ wrapped (left - c.length) cs

/-! ## Running scripts -/

/-- Runs commands from one of them on. `silent` means that lines are not written out on their own.
The first argument bounds the number of commands. -/
def runSteps (silent : Bool) (content : String → List UInt8) (script : List Step) :
    Nat → Nat → Editor → Editor × Ending
  | 0, _, ed => (ed, .done)
  | n + 1, index, ed =>
    match script[index]? with
    | none => (ed, .done)
    | some step =>
      let (selected, ed) := ed.isSelected index step.selector
      let next (ed : Editor) : Editor × Ending := runSteps silent content script n (index + 1) ed
      if selected == step.selector.negated then
        match step.instruction with
        | .block length => runSteps silent content script n (index + 1 + length) ed
        | _ => next ed
      else
        match step.instruction with
        | .block _ | .label _ | .nothing => next ed
        | .substitute r anyCase parts number all shown file =>
          match ed.expression? r anyCase with
          | none => next ed
          | some (r, anyCase) =>
            let ed := { ed with used := some (r, anyCase) }
            let (text, changed) := substituted r anyCase all parts (ed.pattern.length + 2) number
              false none ed.pattern
            if changed then
              let ed := { ed with pattern := text, substituted := true }
              let ed := if shown then ed.print else ed
              next (match file with
                | some file =>
                  { ed with files := (file, bytesOfChars ed.pattern ++ [10]) :: ed.files }
                | none => ed)
            else next ed
        | .replaceChars source target =>
          next { ed with pattern := ed.pattern.map fun c =>
            ((source.zip target).lookup c).getD c }
        | .show => next ed.print
        | .showFirst => next (ed.write (ed.pattern.takeWhile (· != '\n')))
        | .delete => (ed, .dropped)
        | .deleteFirst =>
          match ed.pattern.dropWhile (· != '\n') with
          | [] => (ed, .dropped)
          | _ :: rest => ({ ed with pattern := rest }, .again)
        | .quit status shows => (ed, .quit status shows)
        | .next =>
          match ed.rest with
          | [] => (ed, .quit 0 true)
          | line :: rest =>
            let ed := if silent then ed else ed.print
            next ((ed.finishLine content).read line rest)
        | .appendNext =>
          match ed.rest with
          | [] => (ed, .quit 0 true)
          | line :: rest =>
            let front := ed.pattern
            let ed := (ed.finishLine content).read line rest
            next { ed with pattern := front ++ '\n' :: ed.pattern }
        | .text .before text => next (ed.write text)
        | .text .after text => next { ed with appended := ed.appended ++ [.text text] }
        | .text .instead text =>
          let isInside := (ed.active.lookup index).isSome && !step.selector.negated
          (if isInside then ed else ed.write text, .dropped)
        | .number => next (ed.write (Nat.toDigits 10 ed.number))
        | .hold appends =>
          next { ed with
            held := if appends then ed.held ++ '\n' :: ed.pattern else ed.pattern }
        | .fetch appends =>
          next { ed with
            pattern := if appends then ed.pattern ++ '\n' :: ed.held else ed.held }
        | .exchange => next { ed with pattern := ed.held, held := ed.pattern }
        | .branch name after =>
          let goes := after.all fun wanted => wanted == ed.substituted
          let ed := if after.isSome then { ed with substituted := false } else ed
          if !goes then next ed
          else
            let isTarget (step : Step) : Bool := match step.instruction with
              | .label other => other == name
              | _ => false
            let target := (script.findIdx? isTarget).getD script.length
            runSteps silent content script n (if name.isEmpty then script.length else target) ed
        | .readFile file => next { ed with appended := ed.appended ++ [.file file] }
        | .writeFile file =>
          if file = "/dev/stdout" then next ed.print
          else next { ed with files := (file, bytesOfChars ed.pattern ++ [10]) :: ed.files }
        | .list => next (ed.write (listed ed.pattern))

/-- Edits all lines; gives the editor and the status in the end. The first argument bounds the
number of rounds. -/
def runLines (silent : Bool) (content : String → List UInt8) (script : List Step) :
    Nat → Bool → Editor → Editor × Nat
  | 0, _, ed => (ed, 0)
  | n + 1, keeps, ed =>
    let start : Option Editor :=
      if keeps then some ed
      else match ed.rest with
        | [] => none
        | line :: rest => some { ed.read line rest with substituted := false }
    match start with
    | none => (ed, 0)
    | some ed =>
      let bound := 1000 * (script.length + 1)
      let (ed, ending) := runSteps silent content script bound 0 ed
      let shown := if silent then ed else ed.print
      match ending with
      | .done => runLines silent content script n false (shown.finishLine content)
      | .dropped => runLines silent content script n false (ed.finishLine content)
      | .again => runLines silent content script n true (ed.finishLine content)
      | .quit status shows => ((if shows then shown else ed).finishLine content, status)

/-- The ranges that begin before the first line. -/
def openRanges (script : List Step) : List (Nat × Until) :=
  (script.zipIdx).filterMap fun (step, index) =>
    match step.selector.first, step.selector.last with
    | some (.line 0), some (.address a) => some (index, .address a)
    | _, _ => none

/-- What a script makes of bytes: the editor and the status in the end. -/
def run (silent : Bool) (content : String → List UInt8) (script : List Step)
    (input : List UInt8) : Editor × Nat :=
  let lines := byteLines input
  runLines silent content script (input.length + lines.length + 1) false
    { rest := lines, active := openRanges script }

/-- The bytes that editing wrote. -/
def Editor.written (ed : Editor) : List UInt8 := ed.out.reverse.flatten

end SoloBuild.Shell.Sed
