import SoloBuild.Shell.Regex

/-!
# Scripts of the stream editor

The commands of `sed` with their addresses, and how they are read from a script. Blocks are written
out as jumps, so a script is a row of commands.
-/

namespace SoloBuild.Shell.Sed

open Text

/-- Which lines are meant. -/
inductive Address where
  | line (n : Nat)
  /-- Every so many lines from a line on. -/
  | step (first every : Nat)
  | last
  /-- Lines that match an expression, or the one used last. -/
  | matching (r : Option Regex) (anyCase : Bool)
  deriving Repr

/-- Where a range of lines ends. -/
inductive RangeEnd where
  | address (a : Address)
  | after (lines : Nat)
  | multiple (n : Nat)
  deriving Repr

/-- The lines that a command is for. -/
structure Selector where
  first : Option Address := none
  last : Option RangeEnd := none
  negated : Bool := false
  deriving Repr

/-- A part of a replacement. -/
inductive ReplacementPart where
  | char (c : Char)
  /-- What a group has matched; the whole match is the group zero. -/
  | group (n : Nat)
  /-- The letters that follow change their case: all of them, or the next one. -/
  | letters (upper : Option Bool) (once : Bool)
  deriving Repr

/-- Where text is put that a command holds. -/
inductive TextPlacement where
  | before
  | after
  | instead
  deriving DecidableEq, Repr

/-- A command. -/
inductive Instruction where
  /-- Replaces the match with a number, or all from it on. -/
  | substitute (r : Option Regex) (anyCase : Bool) (parts : List ReplacementPart) (number : Nat)
      (all shown : Bool) (file : Option String)
  | replaceChars (source target : List Char)
  | show
  | showFirst
  | delete
  | deleteFirst
  | quit (status : Nat) (shows : Bool)
  | next
  | appendNext
  | text (placement : TextPlacement) (text : List Char)
  | number
  | hold (appends : Bool)
  | fetch (appends : Bool)
  | exchange
  | label (name : String)
  /-- Goes on at a label, or at the end; only after a substitution, or only after none. -/
  | branch (name : String) (after : Option Bool)
  /-- Goes on after a block whose lines are not meant. -/
  | block (length : Nat)
  | readFile (file : String)
  | writeFile (file : String)
  | list
  | nothing
  deriving Repr

/-- A command with the lines that it is for. -/
structure Step where
  selector : Selector
  instruction : Instruction
  deriving Repr

/-- Why a text is no script, and after how many characters that shows. -/
structure ScriptFault where
  left : Option Nat
  reason : String
  deriving Repr

/-- What reading a part of a script comes to. -/
abbrev ReadResult := Except ScriptFault

/-- Tells what is wrong with what is left of a script. -/
def fault {α : Type} (rest : List Char) (reason : String) : ReadResult α :=
  .error ⟨some rest.length, reason⟩

/-- A space or a tab. -/
def isGap (c : Char) : Bool := c == ' ' || c == '\t'

/-- The bracket expression that follows its opening bracket, up to the closing one, and the rest. -/
def bracket? (cs : List Char) : Option (List Char × List Char) :=
  let (front, cs) := match cs with
    | '^' :: rest => (['^'], rest)
    | cs => ([], cs)
  let (front, cs) := match cs with
    | ']' :: rest => (front ++ [']'], rest)
    | cs => (front, cs)
  (go (cs.length + 1) cs).map fun (inner, rest) => (front ++ inner, rest)
where
  go : Nat → List Char → Option (List Char × List Char)
    | 0, _ => none
    | n + 1, cs =>
      match cs with
      | [] => none
      | ']' :: rest => some ([']'], rest)
      | '[' :: ':' :: rest =>
        let name := rest.takeWhile (· != ']')
        (go n (rest.drop (name.length + 1))).map fun (inner, after) =>
          ("[:".toList ++ name ++ ']' :: inner, after)
      | c :: rest => (go n rest).map fun (inner, after) => (c :: inner, after)

/-- The text up to a delimiter, and the rest. A delimiter after a backslash stands for itself; one
between brackets ends no expression. The first argument bounds the number of characters. -/
def delimited? (delimiter : Char) (isExpression : Bool) :
    Nat → List Char → Option (List Char × List Char)
  | 0, _ => none
  | n + 1, cs =>
    let keep (front rest : List Char) : Option (List Char × List Char) :=
      (delimited? delimiter isExpression n rest).map fun (inner, after) => (front ++ inner, after)
    match cs with
    | [] => none
    | '\\' :: c :: rest =>
      if c = delimiter ∧ (isExpression ∨ c ≠ '&') then keep [c] rest else keep ['\\', c] rest
    | c :: rest =>
      if c = delimiter then some ([], rest)
      else if c = '[' ∧ isExpression then
        (bracket? rest).bind fun (inner, after) => keep ('[' :: inner) after
      else if c = '\n' ∧ isExpression then none
      else keep [c] rest

/-- The expression that a text is; an empty one stands for the one used last. -/
def expression (extended : Bool) (rest text : List Char) :
    ReadResult (Option Regex) :=
  if text.isEmpty then .ok none
  else
    match Regex.ofText extended text with
    | .ok r => .ok (some r)
    | .error cause => fault rest cause.message

/-- The address that a script begins with. -/
def address? (extended : Bool) (cs : List Char) : ReadResult (Option Address × List Char) :=
  let matching (delimiter : Char) (cs : List Char) : ReadResult (Option Address × List Char) :=
    match delimited? delimiter true (cs.length + 1) cs with
    | none => fault [] "unterminated address regex"
    | some (text, rest) => do
      let flags := rest.takeWhile fun c => c == 'I' || c == 'M'
      let rest := rest.drop flags.length
      return (some (.matching (← expression extended rest text) (flags.contains 'I')), rest)
  match cs with
  | '$' :: rest => .ok (some .last, rest)
  | '/' :: rest => matching '/' rest
  | '\\' :: delimiter :: rest => matching delimiter rest
  | cs =>
    let digits := cs.takeWhile Char.isDigit
    let rest := cs.drop digits.length
    if digits.isEmpty then .ok (none, cs)
    else
      match rest with
      | '~' :: rest =>
        let every := rest.takeWhile Char.isDigit
        .ok (some (.step (decimal digits) (decimal every)), rest.drop every.length)
      | rest => .ok (some (.line (decimal digits)), rest)

/-- The lines that a command is for, as the script before it tells. -/
def selector (extended : Bool) (cs : List Char) : ReadResult (Selector × List Char) := do
  let (first, rest) ← address? extended cs
  let rest := rest.dropWhile isGap
  let (last, rest) ← match first, rest with
    | some _, ',' :: rest => do
      let rest := rest.dropWhile isGap
      let count (c : Char) (rest : List Char) (make : Nat → RangeEnd) :
          ReadResult (Option RangeEnd × List Char) :=
        let digits := rest.takeWhile Char.isDigit
        if digits.isEmpty then fault (c :: rest) "expected number"
        else .ok (some (make (decimal digits)), rest.drop digits.length)
      match rest with
      | '+' :: rest => count '+' rest .after
      | '~' :: rest => count '~' rest .multiple
      | rest =>
        match ← address? extended rest with
        | (some a, rest) => pure (some (RangeEnd.address a), rest)
        | (none, rest) => fault rest "unexpected \x60,'"
    | _, rest => pure (none, rest)
  let rest := rest.dropWhile isGap
  let negated := rest.head? == some '!'
  return ({ first, last, negated }, rest.dropWhile fun c => isGap c || c == '!')

/-- The parts of a replacement. -/
def replacement : List Char → List ReplacementPart
  | [] => []
  | '&' :: rest => .group 0 :: replacement rest
  | '\\' :: c :: rest =>
    (if c.isDigit then .group (digitValue c)
      else if c = 'n' then .char '\n'
      else if c = 't' then .char '\t'
      else if c = 'U' then .letters (some true) false
      else if c = 'L' then .letters (some false) false
      else if c = 'u' then .letters (some true) true
      else if c = 'l' then .letters (some false) true
      else if c = 'E' then .letters none false
      else .char c) :: replacement rest
  | c :: rest => .char c :: replacement rest

/-- What follows a command: the end of the line or block, or a semicolon. -/
def afterCommand (cs : List Char) : ReadResult (List Char) :=
  match cs.dropWhile isGap with
  | [] => .ok []
  | ';' :: rest | '\n' :: rest => .ok rest
  | '\x7d' :: rest => .ok ('\x7d' :: rest)
  | '#' :: rest => .ok ('#' :: rest)
  | _ :: rest => fault rest "extra characters after command"

/-- The text up to the end of the line, and the lines after it. -/
def restOfLine (cs : List Char) : List Char × List Char :=
  let line := cs.takeWhile (· != '\n')
  (line, cs.drop (line.length + 1))

/-- The text that a command holds: up to the end of a line that does not end in a backslash. -/
def heldText : List Char → List Char × List Char
  | [] => ([], [])
  | '\\' :: c :: rest =>
    let (text, after) := heldText rest
    (c :: text, after)
  | '\n' :: rest => ([], rest)
  | c :: rest =>
    let (text, after) := heldText rest
    (c :: text, after)

/-- The flags of a substitution. -/
structure Flags where
  number : Option Nat := none
  all : Bool := false
  shown : Bool := false
  anyCase : Bool := false
  file : Option String := none

/-- Reads the flags of a substitution. The first argument bounds their number. -/
def flags : Nat → Flags → List Char → ReadResult (Flags × List Char)
  | 0, f, cs => .ok (f, cs)
  | n + 1, f, cs =>
    match cs with
    | 'g' :: rest => flags n { f with all := true } rest
    | 'p' :: rest => flags n { f with shown := true } rest
    | 'i' :: rest | 'I' :: rest => flags n { f with anyCase := true } rest
    | 'm' :: rest | 'M' :: rest => flags n f rest
    | 'w' :: rest =>
      let (file, rest) := restOfLine (rest.dropWhile isGap)
      .ok ({ f with file := some (String.ofList file) }, rest)
    | c :: rest =>
      if c.isDigit then
        let digits := cs.takeWhile Char.isDigit
        if decimal digits = 0 then
          fault rest "number option to \x60s' command may not be zero"
        else flags n { f with number := some (decimal digits) } (cs.drop digits.length)
      else if isGap c || c == ';' || c == '\n' || c == '\x7d' || c == '#' then do
        return (f, ← afterCommand cs)
      else fault rest "unknown option to \x60s'"
    | [] => .ok (f, [])

/-- A command, which begins with a letter. -/
def instruction (extended : Bool) (command : Char) (cs : List Char) :
    ReadResult (Instruction × List Char) :=
  let simple (i : Instruction) : ReadResult (Instruction × List Char) := do
    return (i, ← afterCommand cs)
  let named (make : String → Instruction) : ReadResult (Instruction × List Char) :=
    let cs := cs.dropWhile isGap
    let name := cs.takeWhile fun c => c != '\n' && c != ';' && c != '\x7d' && !isGap c
    .ok (make (String.ofList name), (cs.drop name.length).dropWhile fun c => isGap c || c == ';')
  let text (placement : TextPlacement) : ReadResult (Instruction × List Char) :=
    match cs.dropWhile isGap with
    | [] => fault [] "expected \\ after \x60a', \x60c' or \x60i'"
    | '\\' :: rest =>
      let rest := match rest.dropWhile isGap with
        | '\n' :: after => after
        | _ => rest
      let (held, rest) := heldText rest
      .ok (.text placement held, rest)
    | rest =>
      let (held, rest) := heldText rest
      .ok (.text placement held, rest)
  let file (make : String → Instruction) : ReadResult (Instruction × List Char) :=
    let (name, rest) := restOfLine (cs.dropWhile isGap)
    if name.isEmpty then fault rest "missing filename in r/R/w/W commands"
    else .ok (make (String.ofList name), rest)
  match command with
  | 'p' => simple .show
  | 'P' => simple .showFirst
  | 'd' => simple .delete
  | 'D' => simple .deleteFirst
  | 'n' => simple .next
  | 'N' => simple .appendNext
  | '=' => simple .number
  | 'h' => simple (.hold false)
  | 'H' => simple (.hold true)
  | 'g' => simple (.fetch false)
  | 'G' => simple (.fetch true)
  | 'x' => simple .exchange
  | 'l' => simple .list
  | 'a' => text .after
  | 'i' => text .before
  | 'c' => text .instead
  | ':' => named .label
  | 'b' => named fun name => .branch name none
  | 't' => named fun name => .branch name (some true)
  | 'T' => named fun name => .branch name (some false)
  | 'r' => file .readFile
  | 'w' => file .writeFile
  | 'q' | 'Q' => do
    let cs := cs.dropWhile isGap
    let digits := cs.takeWhile Char.isDigit
    return (.quit (decimal digits) (command == 'q'), ← afterCommand (cs.drop digits.length))
  | 's' =>
    match cs with
    | [] => fault [] "unterminated \x60s' command"
    | delimiter :: rest =>
      let read := do
        let (pattern, rest) ← delimited? delimiter true (rest.length + 1) rest
        let (new, rest) ← delimited? delimiter false (rest.length + 1) rest
        return (pattern, new, rest)
      match read with
      | none => fault [] "unterminated \x60s' command"
      | some (pattern, new, rest) => do
        let (f, after) ← flags (rest.length + 1) {} rest
        let r ← expression extended after pattern
        let parts := replacement new
        let most := parts.foldl (fun most part => match part with
          | .group n => max most n
          | _ => most) 0
        let groups := (r.map Regex.groupCount).getD most
        if groups < most then
          fault after ("invalid reference \\" ++ toString most ++ " on \x60s' command's RHS")
        else
          return (.substitute r f.anyCase parts (f.number.getD 1) f.all f.shown f.file, after)
  | 'y' =>
    match cs with
    | [] => fault [] "unterminated \x60y' command"
    | delimiter :: rest =>
      let read := do
        let (source, rest) ← delimited? delimiter false (rest.length + 1) rest
        let (target, rest) ← delimited? delimiter false (rest.length + 1) rest
        return (source, target, rest)
      match read with
      | none => fault [] "unterminated \x60y' command"
      | some (source, target, rest) =>
        let plain (cs : List Char) : List Char := (replacement cs).map fun part =>
          match part with
          | .char c => c
          | _ => '&'
        if (plain source).length = (plain target).length then do
          return (.replaceChars (plain source) (plain target), ← afterCommand rest)
        else fault rest "strings for \x60y' command are different lengths"
  | c => fault cs ("unknown command: \x60" ++ String.ofList [c] ++ "'")

/-- The commands of a script, up to the end of a block. The first argument bounds their number. -/
def steps (extended : Bool) : Nat → Nat → List Char → ReadResult (List Step × List Char)
  | 0, _, cs => .ok ([], cs)
  | n + 1, depth, cs => do
    let cs := cs.dropWhile fun c => isGap c || c == ';' || c == '\n'
    match cs with
    | [] => if depth = 0 then return ([], []) else .error ⟨none, "unmatched \x60\x7b'"⟩
    | '#' :: rest => steps extended n depth (restOfLine rest).2
    | _ =>
      let (selector, rest) ← selector extended cs
      match rest with
      | [] => fault [] "missing command"
      | '\x7b' :: rest =>
        let (inner, rest) ← steps extended n (depth + 1) rest
        let (more, rest) ← steps extended n depth rest
        return ({ selector, instruction := .block inner.length } :: inner ++ more, rest)
      | '\x7d' :: rest =>
        if depth = 0 then fault rest "unexpected \x60\x7d'"
        else if selector.first.isSome then fault rest "\x7d doesn't want any addresses"
        else return ([], ← afterCommand rest)
      | '\n' :: rest | ';' :: rest => fault rest "missing command"
      | command :: rest =>
        let (instruction, rest) ← instruction extended command rest
        let (more, rest) ← steps extended n depth rest
        return ({ selector, instruction } :: more, rest)

/-- The commands of a script. -/
def ofText (extended : Bool) (script : List Char) : Except String (List Step) :=
  match steps extended (script.length + 2) 0 script with
  | .ok (read, _) => .ok read
  | .error e =>
    let position := (e.left.map fun left => script.length - left).getD 0
    .error ("-e expression #1, char " ++ toString position ++ ": " ++ e.reason)

end SoloBuild.Shell.Sed
