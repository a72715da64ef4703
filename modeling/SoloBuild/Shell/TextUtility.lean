import SoloBuild.Shell.Formatted
import SoloBuild.Shell.Ordering
import SoloBuild.Shell.Sed

/-!
# Utilities for text

The programs that write their arguments, and those that copy, number, count, edit or turn around
what they read.
-/

namespace SoloBuild.Shell

open Text

/-! ## Writing arguments -/

/-- What `echo` writes when it is run as a program: escapes stand for themselves unless they are
asked for. -/
def echoProgram (args : List String) : List UInt8 :=
  let isOption (arg : String) : Bool :=
    match arg.toList with
    | '-' :: c :: cs => (c :: cs).all fun c => c == 'n' || c == 'e' || c == 'E'
    | _ => false
  let letters := (args.takeWhile isOption).flatMap fun arg => arg.toList.drop 1
  let text := " ".intercalate (args.dropWhile isOption)
  let newline : List UInt8 := if letters.contains 'n' then [] else [10]
  if (letters.filter (· != 'n')).getLast? = some 'e' then
    let (bytes, goesOn) := escaped (text.length + 1) text.toList
    bytes ++ if goesOn then newline else []
  else bytesOf text ++ newline

/-- What `printf` does when it is run as a program. -/
def runPrintf (e : Effect) (args : List String) : Effect :=
  match if args.head? = some "--" then args.drop 1 else args with
  | [] => e.misuse "missing operand" 1
  | format :: args =>
    let f := formatted format args
    let e := f.faults.foldl (fun (e : Effect) fault => e.complain fault 1) e
    e.write (f.written.reverse.flatten)

/-- What `yes` does: a line again and again, as often as what reads it asks for. -/
def runYes (e : Effect) (args : List String) : Effect :=
  e.withArguments { stopsAtOperand := true } 1 args fun a =>
    let line := bytesOf ((if a.operands.isEmpty then "y" else " ".intercalate a.operands) ++ "\n")
    e.write (List.replicate e.demand line).flatten

/-! ## Copying -/

/-- How `cat` shows what it copies. -/
structure Display where
  numbersAll : Bool
  numbersFilled : Bool
  marksEnds : Bool
  marksTabs : Bool
  marksOthers : Bool
  joinsEmpty : Bool

namespace Display

/-- The display that options ask for. -/
def ofArguments (a : Arguments) : Display where
  numbersAll := a.has 'n'
  numbersFilled := a.has 'b'
  marksEnds := a.has 'E' || a.has 'A' || a.has 'e'
  marksTabs := a.has 'T' || a.has 'A' || a.has 't'
  marksOthers := a.has 'v' || a.has 'A' || a.has 'e' || a.has 't'
  joinsEmpty := a.has 's'

/-- A character as it is shown. -/
def char (d : Display) (c : Char) : List Char :=
  let low (n : Nat) : List Char :=
    if n < 32 then ['^', Char.ofNat (n + 64)] else if n = 127 then ['^', '?'] else [Char.ofNat n]
  if c = '\t' then (if d.marksTabs then ['^', 'I'] else [c])
  else if !d.marksOthers then [c]
  else if c.toNat < 128 then low c.toNat
  else 'M' :: '-' :: low (c.toNat - 128)

/-- Lines as they are shown, after so many lines that have numbers. `afterEmpty` tells that the line
before is empty. -/
def lines (d : Display) : Nat → Bool → List (List UInt8) → List UInt8
  | _, _, [] => []
  | number, afterEmpty, line :: rest =>
    let text := textOf (chomp line)
    let isEmpty := line == [10]
    if d.joinsEmpty && isEmpty && afterEmpty then d.lines number true rest
    else
      let isNumbered := if d.numbersFilled then !isEmpty else d.numbersAll
      let front := if isNumbered then (aligned 6 (number + 1)).toList ++ ['\t'] else []
      let ending : List Char :=
        if line.getLast? = some 10 then (if d.marksEnds then ['$', '\n'] else ['\n']) else []
      bytesOfChars (front ++ text.flatMap d.char ++ ending) ++
        d.lines (if isNumbered then number + 1 else number) isEmpty rest

/-- The bytes as they are shown. -/
def shown (d : Display) (bytes : List UInt8) : List UInt8 :=
  if d.numbersAll || d.numbersFilled || d.marksEnds || d.marksTabs || d.marksOthers || d.joinsEmpty
  then d.lines 0 false (byteLines bytes)
  else bytes

end Display

/-- What `cat` does: each file is written out as soon as it is read. -/
def runCat (e : Effect) (args : List String) : Effect :=
  let table : OptionTable := {
    flags := "nbAETvetsu"
    names := [("number", 'n'), ("number-nonblank", 'b'), ("show-all", 'A'), ("show-ends", 'E'),
      ("show-tabs", 'T'), ("show-nonprinting", 'v'), ("squeeze-blank", 's')] }
  e.withArguments table 1 args fun a =>
    let d := Display.ofArguments a
    let (e, _) := (orInput a.operands).foldl
      (fun ((e : Effect), (before : List UInt8)) file =>
        match operand e (plainly 1) file with
        | (e, none) => (e, before)
        | (e, some content) =>
          let all := before ++ content
          ((e.write ((d.shown all).drop (d.shown before).length)).flush, all)) (e, [])
    e

/-- What `tee` does: its input goes to files and to the output. -/
def runTee (e : Effect) (args : List String) : Effect :=
  let table : OptionTable := { flags := "aip", names := [("append", 'a')] }
  e.withArguments table 1 args fun a =>
    let bytes := e.input
    let e := a.operands.foldl (fun (e : Effect) file =>
      let old : List UInt8 :=
        if a.has 'a' then ((e.files.readBytes (pathOf file)).toOption.map ByteArray.toList).getD []
        else []
      match e.files.writeBytes (pathOf file) ⟨(old ++ bytes).toArray⟩ with
      | .ok files => { e with files }
      | .error cause => e.complain (file ++ ": " ++ errorText cause) 1) { e with input := [] }
    e.write bytes

/-- What `tac` does: the lines of each file, the last one first. -/
def runTac (e : Effect) (args : List String) : Effect :=
  e.withArguments { flags := "br", valued := "s" } 1 args fun a =>
    let unreadable (e : Effect) (file : String) (cause : OsError) : Effect :=
      if cause = .isADirectory then e.complain (file ++ ": read error: Invalid argument") 1
      else e.complain ("failed to open '" ++ file ++ "' for reading: " ++ errorText cause) 1
    let (e, contents) := operands e unreadable a.operands
    e.write (contents.flatMap fun content => (byteLines content).reverse.flatten)

/-- What `rev` does: the characters of each line, the last one first. -/
def runRev (e : Effect) (args : List String) : Effect :=
  let shortName := String.ofList ((e.tool.toList.reverse.takeWhile (· != '/')).reverse)
  let e := { e with tool := shortName }
  e.withArguments {} 1 args fun a =>
    let unreadable (e : Effect) (file : String) (cause : OsError) : Effect :=
      if cause = .isADirectory then e
      else e.warn ("cannot open " ++ file ++ ": " ++ errorText cause) 1
    let (e, contents) := operands e unreadable a.operands
    e.write (contents.flatMap fun content => (byteLines content).flatMap fun line =>
      (chomp line).reverse ++ line.drop (chomp line).length)

/-! ## Counting -/

/-- The number of words of a text. -/
def wordCount (text : List Char) : Nat :=
  (splitWhere (fun c => c == ' ' || ('\t' ≤ c && c ≤ '\r')) text).countP fun w => !w.isEmpty

/-- The width of the longest line; a tab goes to the next multiple of eight. -/
def lineWidth (text : List Char) : Nat :=
  let widths := (splitWhere (· == '\n') text).map fun line =>
    line.foldl (fun width c =>
      if c = '\t' then width + (8 - width % 8)
      else if ' ' ≤ c ∧ c ≤ '~' then width + 1 else width) 0
  widths.foldl max 0

/-- The counts of a text, as far as they are asked for: lines, words, characters, bytes, and the
width of the longest line. -/
def countsOf (a : Arguments) (bytes : List UInt8) : List Nat :=
  let text := textOf bytes
  let counts := [('l', bytes.count 10), ('w', wordCount text), ('m', bytes.length),
    ('c', bytes.length), ('L', lineWidth text)]
  let isAsked (c : Char) : Bool :=
    if a.options.isEmpty then c == 'l' || c == 'w' || c == 'c' else a.has c
  (counts.filter fun (c, _) => isAsked c).map (·.2)

/-- What `wc` does. The counts are as wide as the size of all files has digits, or seven if the size
of something that is read is not known before. -/
def runWc (e : Effect) (args : List String) : Effect :=
  let table : OptionTable := {
    flags := "lwcmL"
    names := [("lines", 'l'), ("words", 'w'), ("bytes", 'c'), ("chars", 'm'),
      ("max-line-length", 'L')] }
  e.withArguments table 1 args fun a =>
    let size (file : String) : Option Nat :=
      if file = "-" then (if e.readsFile then some e.input.length else none)
      else match contentAt e.files 0 file with
        | .ok content => some content.length
        | .error .isADirectory => none
        | .error _ => some 0
    let files := orInput a.operands
    let sizes := files.filterMap size
    let width :=
      if files.length = 1 ∧ (countsOf a []).length = 1 then 1
      else if sizes.length < files.length then 7
      else (toString (sizes.foldl (· + ·) 0)).length
    let line (bytes : List UInt8) (name : List String) : List UInt8 :=
      bytesOf (" ".intercalate ((countsOf a bytes).map (aligned width) ++ name) ++ "\n")
    let name (file : String) : List String := if a.operands.isEmpty then [] else [file]
    let (e, all) := files.foldl (fun ((e : Effect), (all : List UInt8)) file =>
      let unreadable (e : Effect) (file : String) (cause : OsError) : Effect :=
        let e := plainly 1 e file cause
        if cause = .isADirectory then e.write (line [] (name file)) else e
      match operand e unreadable file with
      | (e, some content) => (e.write (line content (name file)), all ++ content)
      | (e, none) => (e, all)) (e, [])
    if 1 < files.length then e.write (line all ["total"]) else e

/-! ## Editing -/

/-- The script that the options of `sed` tell, with the files. -/
def sedScript (e : Effect) (a : Arguments) : Except String (String × List String) :=
  let parts := a.options.filter fun o => o.1 == 'e' || o.1 == 'f'
  if parts.isEmpty then
    match a.operands with
    | script :: files => .ok (script, files)
    | [] => .error "Usage"
  else do
    let texts ← parts.mapM fun (c, value) =>
      if c = 'e' then .ok value
      else match contentAt e.files 0 value with
        | .ok content => .ok (String.ofList (textOf (chomp content)))
        | .error cause => .error ("couldn't open file " ++ value ++ ": " ++ errorText cause)
    return ("\n".intercalate texts, a.operands)

/-- Writes what an editor has written to files. -/
def withWrittenFiles (e : Effect) (ed : Sed.Editor) : Effect :=
  let names := (ed.files.map (·.1)).eraseDups
  names.foldl (fun (e : Effect) name =>
    let bytes := (ed.files.reverse.filter fun f => f.1 == name).flatMap (·.2)
    if name = "/dev/stdout" then e.write bytes
    else
      match e.files.writeBytes (pathOf name) ⟨bytes.toArray⟩ with
      | .ok files => { e with files }
      | .error cause => e.warn ("couldn't open file " ++ name ++ ": " ++ errorText cause) 4) e

/-- What `sed` does: the edits of its script, applied to all lines, or to the lines of each file in
its place. -/
def runSed (e : Effect) (args : List String) : Effect :=
  let table : OptionTable := {
    flags := "nErsuiz", valued := "efl"
    names := [("quiet", 'n'), ("silent", 'n'), ("expression", 'e'), ("file", 'f'),
      ("regexp-extended", 'E'), ("in-place", 'i'), ("separate", 's')] }
  match table.read args with
  | .error message => e.complain message 1
  | .ok a =>
    match sedScript e a with
    | .error message =>
      if message = "Usage" then
        { e.tell ("Usage: " ++ e.tool ++ " [OPTION]... \x7bscript-only-if-no-other-script\x7d " ++
            "[input-file]...") with status := 1 }
      else e.warn message 1
    | .ok (script, files) =>
      match Sed.ofText (a.has 'E' || a.has 'r') script.toList with
      | .error message => e.warn message 1
      | .ok steps =>
        let silent := a.has 'n' || "#n\n".toList.isPrefixOf script.toList
        let content (file : String) : List UInt8 :=
          ((contentAt e.files 0 file).toOption).getD []
        let unreadable (e : Effect) (file : String) (cause : OsError) : Effect :=
          if cause = .isADirectory then
            e.warn ("couldn't edit " ++ file ++ ": not a regular file") 4
          else e.warn ("can't read " ++ file ++ ": " ++ errorText cause) 2
        let unreadableInput (e : Effect) (file : String) (cause : OsError) : Effect :=
          if cause = .isADirectory then e.warn ("read error on " ++ file ++ ": Is a directory") 2
          else unreadable e file cause
        if a.has 'i' then
          (orInput files).foldl (fun (e : Effect) file =>
            match operand e unreadable file with
            | (e, none) => e
            | (e, some bytes) =>
              let (ed, status) := Sed.run silent content steps bytes
              let e := withWrittenFiles { e with status := max e.status status } ed
              match e.files.writeBytes (pathOf file) ⟨ed.written.toArray⟩ with
              | .ok files => { e with files }
              | .error _ => e) e
        else
          let (e, contents) := operands e unreadableInput files
          -- Only the last line of all may lack the newline.
          let joined := contents.foldr (fun bytes rest =>
            if bytes.isEmpty || rest.isEmpty || bytes.getLast? = some 10 then bytes ++ rest
            else bytes ++ 10 :: rest) []
          let (ed, status) := Sed.run silent content steps joined
          withWrittenFiles ({ e with status := max e.status status }.write ed.written) ed

end SoloBuild.Shell
