import SoloBuild.Shell.Effect
import SoloBuild.Shell.Regex
import SoloBuild.Text.Digits
import SoloBuild.Text.Splitting

/-!
# Searching lines

What `grep` does: lines that expressions match are written, counted, or only looked for.
-/

namespace SoloBuild.Shell

open Text

/-- A search for lines. -/
structure Search where
  regexes : List Regex
  anyCase : Bool
  inverted : Bool
  wholeLines : Bool
  wholeWords : Bool

namespace Search

/-- The expressions that the options and the first operand tell, with the files. -/
def patterns? (a : Arguments) : Option (List String × List String) :=
  let given := a.values 'e'
  if given.isEmpty then
    match a.operands with
    | pattern :: files => some ([pattern], files)
    | [] => none
  else some (given, a.operands)

/-- The search that options ask for. Each line of an expression is one of its own. -/
def ofArguments (a : Arguments) (patterns : List String) : Except Regex.Fault Search := do
  let lines := patterns.flatMap fun p => splitWhere (· == '\n') p.toList
  let kind := (a.lastOf? ['E', 'F', 'G']).getD 'G'
  return {
    regexes := ← lines.mapM fun line =>
      if kind = 'F' then .ok (Regex.ofFixed line) else Regex.ofText (kind == 'E') line
    anyCase := a.has 'i' || a.has 'y', inverted := a.has 'v', wholeLines := a.has 'x'
    wholeWords := a.has 'w' }

/-- The characters around a match belong to no word. -/
def isWord (before : Option Char) (m : Regex.Match) : Bool :=
  !((m.before.getLast?.or before).any isWordByte) && !m.after.rest.head?.any isWordByte

/-- The first match of an expression that counts, from a place in a line on. The first argument
bounds the number of places. -/
def matchFrom? (s : Search) (r : Regex) : Nat → Option Char → List Char → Option Regex.Match
  | 0, _, _ => none
  | n + 1, before, text =>
    let r := if s.wholeLines then
        Regex.seq (.anchor .start) (.seq r (.anchor .stop))
      else r
    match r.findFrom? s.anyCase before text with
    | none => none
    | some m =>
      if !s.wholeWords || isWord before m then some m
      else
        let passed := m.before ++ text.drop m.before.length |>.take (m.before.length + 1)
        match text.drop (m.before.length + 1) with
        | [] => none
        | rest =>
          (s.matchFrom? r n (passed.getLast?.or before) rest).map fun later =>
            { later with before := passed ++ later.before }

/-- The first match in a line from a place on, the longest of those that begin there. -/
def match? (s : Search) (before : Option Char) (text : List Char) : Option Regex.Match :=
  s.regexes.foldl (fun best r =>
    match s.matchFrom? r (text.length + 1) before text, best with
    | some m, some b =>
      if m.before.length < b.before.length ∨
          (m.before.length = b.before.length ∧ b.whole.length < m.whole.length) then some m
      else some b
    | some m, none => some m
    | none, best => best) none

/-- A line is found. -/
def finds (s : Search) (line : List Char) : Bool := (s.match? none line).isSome != s.inverted

/-- The texts in a line that match and are not empty. The first argument bounds their number. -/
def texts (s : Search) : Nat → Option Char → List Char → List (List Char)
  | 0, _, _ => []
  | n + 1, before, text =>
    match s.match? before text with
    | none => []
    | some m =>
      let more := if m.whole.isEmpty then m.after.rest.drop 1 else m.after.rest
      let last := (m.before ++ m.whole).getLast?.or before
      let last := if m.whole.isEmpty then m.after.rest.head?.or last else last
      let found := if more.isEmpty && m.whole.isEmpty then [] else s.texts n last more
      if m.whole.isEmpty then found else m.whole :: found

end Search

/-- What `grep` writes about a file, and whether a line was found in it. -/
def searched (s : Search) (a : Arguments) (isNamed : Bool) (file : String)
    (content : List UInt8) : List UInt8 × Bool :=
  let hits := ((textLines content).zipIdx 1).filter fun (line, _) => s.finds line
  let hits := match a.value? 'm' with
    | some most => hits.take (decimal most.toList)
    | none => hits
  let name := if isNamed then (if file = "-" then "(standard input)" else file) ++ ":" else ""
  let bytes :=
    if a.has 'q' then []
    else if a.has 'l' then if hits.isEmpty then [] else bytesOf (file ++ "\n")
    else if a.has 'L' then if hits.isEmpty then bytesOf (file ++ "\n") else []
    else if a.has 'c' then bytesOf (name ++ toString hits.length ++ "\n")
    else hits.flatMap fun (line, number) =>
      let place := bytesOf (name ++ (if a.has 'n' then toString number ++ ":" else ""))
      if a.has 'o' then
        if s.inverted then []
        else (s.texts (line.length + 1) none line).flatMap fun text =>
          place ++ bytesOfChars (text ++ ['\n'])
      else place ++ bytesOfChars (line ++ ['\n'])
  (bytes, !hits.isEmpty)

/-- What `grep` does: its status tells whether a line was found. -/
def runGrep (e : Effect) (args : List String) : Effect :=
  let table : OptionTable := {
    flags := "EFGivnclLoqshHwxya", valued := "em"
    names := [("extended-regexp", 'E'), ("fixed-strings", 'F'), ("basic-regexp", 'G'),
      ("ignore-case", 'i'), ("invert-match", 'v'), ("line-number", 'n'), ("count", 'c'),
      ("files-with-matches", 'l'), ("files-without-match", 'L'), ("only-matching", 'o'),
      ("quiet", 'q'), ("silent", 'q'), ("no-messages", 's'), ("no-filename", 'h'),
      ("with-filename", 'H'), ("word-regexp", 'w'), ("line-regexp", 'x'), ("regexp", 'e'),
      ("max-count", 'm'), ("text", 'a')] }
  let usage (e : Effect) : Effect :=
    { (e.flush.tell ("Usage: " ++ e.tool ++ " [OPTION]... PATTERNS [FILE]...")).tell
        ("Try '" ++ e.tool ++ " --help' for more information.") with status := 2 }
  match table.read args with
  | .error message => usage (e.complain message 2)
  | .ok a =>
    match Search.patterns? a with
    | none => usage e
    | some (patterns, files) =>
      match Search.ofArguments a patterns with
      | .error fault => e.complain fault.message 2
      | .ok s =>
        let isNamed := (a.lastOf? ['h', 'H']).elim (decide (1 < files.length)) (· == 'H')
        let unreadable (e : Effect) (file : String) (cause : OsError) : Effect :=
          if a.has 's' then { e with status := 2 }
          else
            let e := e.complain (file ++ ": " ++ errorText cause) 2
            if a.has 'c' && cause = .isADirectory then
              e.write (bytesOf ((if isNamed then file ++ ":" else "") ++ "0\n"))
            else e
        let (e, isFound) := (orInput files).foldl (fun ((e : Effect), (isFound : Bool)) file =>
          if a.has 'q' && isFound then (e, isFound)
          else
            match operand e unreadable file with
            | (e, none) => (e, isFound)
            | (e, some content) =>
              let (bytes, hit) := searched s a isNamed file content
              let hit := if a.has 'L' then !hit else hit
              (e.write bytes, isFound || hit)) (e, false)
        let quietly := a.has 'q' && isFound
        { e with status := if quietly then 0 else max e.status (if isFound then 0 else 1) }

end SoloBuild.Shell
