import SoloBuild.Shell.Characters
import SoloBuild.Shell.Script
import SoloBuild.Text.Digits
import SoloBuild.Text.Splitting

/-!
# The text of a script while it is read

Reading takes characters off the text, counts its lines, and keeps a token that was read too early.
The documents that a line announces begin after it, so they are kept until the line is read.
-/

namespace SoloBuild.Shell

open Text

/-- A part of a script. -/
inductive Token where
  | word (w : Word)
  /-- A word that has a meaning of its own where a command begins. -/
  | keyword (text : String)
  | operator (text : String)
  | redirect (descriptor : Nat) (kind : RedirectKind)
  /-- A redirection to a document, of whose lines the tabs in front may not count. -/
  | document (descriptor : Nat) (withoutTabs : Bool)
  | newline
  | finish

/-- A document that a line announces. -/
structure Announced where
  key : Nat
  /-- The line that ends it. -/
  ending : List Char
  /-- Expansions happen in it. -/
  expands : Bool
  /-- The tabs that its lines begin with do not count. -/
  withoutTabs : Bool

/-- What is left of a script. -/
structure Source where
  rest : List Char
  line : Nat := 1
  /-- A token that is read, but not used yet. -/
  ahead : Option Token := none
  announced : List Announced := []
  documents : List (Nat × Word) := []
  /-- How many documents were announced. -/
  keys : Nat := 0
  /-- Texts that stand for names of commands. -/
  aliases : List (String × String) := []
  /-- The names that are not replaced as long as more than so many characters are left. -/
  replaced : List (String × Nat) := []

/-- Why a text is no script, and the line in which that shows. -/
structure SyntaxFault where
  line : Nat
  reason : String
  deriving DecidableEq, Repr

/-- Reading from a script. -/
abbrev Reading := StateT Source (Except SyntaxFault)

namespace Reading

/-- Tells that a text is no script. -/
def fault {α : Type} (reason : String) : Reading α := fun src => .error ⟨src.line, reason⟩

/-- The text that is left. -/
def rest : Reading (List Char) := fun src => .ok (src.rest, src)

/-- Goes on with another text. -/
def goOn (rest : List Char) : Reading Unit := fun src => .ok ((), { src with rest })

/-- Goes on with another text, after so many line ends. -/
def goOnBelow (lines : Nat) (rest : List Char) : Reading Unit := fun src =>
  .ok ((), { src with rest, line := src.line + lines })

/-- The line that is read. -/
def line : Reading Nat := fun src => .ok (src.line, src)

/-- Keeps a token for the next reader. -/
def putBack (t : Token) : Reading Unit := fun src => .ok ((), { src with ahead := some t })

/-- The next character; a backslash before a line end joins two lines. -/
def next? : Reading (Option Char) := fun src =>
  go src.rest src.line |> fun (c, rest, line) => .ok (c, { src with rest, line })
where
  go : List Char → Nat → Option Char × List Char × Nat
    | '\\' :: '\n' :: rest, line => go rest (line + 1)
    | '\n' :: rest, line => (some '\n', rest, line + 1)
    | c :: rest, line => (some c, rest, line)
    | [], line => (none, [], line)

/-- The next character, which is left where it is. -/
def peek? : Reading (Option Char) := fun src =>
  go src.rest src.line |> fun (c, rest, line) => .ok (c, { src with rest, line })
where
  go : List Char → Nat → Option Char × List Char × Nat
    | '\\' :: '\n' :: rest, line => go rest (line + 1)
    | c :: rest, line => (some c, c :: rest, line)
    | [], line => (none, [], line)

/-- Takes a character if it is the next one. -/
def takes (c : Char) : Reading Bool := do
  if (← peek?) = some c then
    let _ ← next?
    return true
  else return false

/-- The characters of a kind that the text begins with. The first argument bounds their number. -/
def takeWhile (isIn : Char → Bool) : Nat → Reading (List Char)
  | 0 => return []
  | n + 1 => do
    match ← peek? with
    | some c =>
      if isIn c then
        let _ ← next?
        return c :: (← takeWhile isIn n)
      else return []
    | none => return []

/-- Reads a text of its own, and then goes on where the reading was. -/
def inside {α : Type} (text : List Char) (line : Nat) (reading : Reading α) : Reading α := do
  let before ← get
  set { before with rest := text, line, ahead := none, announced := [] }
  let a ← reading
  modify fun src => { before with documents := src.documents, keys := src.keys }
  return a

end Reading

/-! ## Tokens -/

/-- The words that have a meaning of their own where a command begins. -/
def keywords : List String :=
  ["!", "case", "do", "done", "elif", "else", "esac", "fi", "for", "if", "in", "then", "until",
    "while", "\x7b", "\x7d"]

/-- The keywords that end a list of commands. -/
def closers : List String := ["do", "done", "elif", "else", "esac", "fi", "then", "\x7d"]

/-- The commands whose errors end a script; their names are no names of functions. -/
def specialCommands : List String :=
  [".", ":", "break", "continue", "eval", "exec", "exit", "export", "local", "readonly", "return",
    "set", "shift", "times", "trap", "unset"]

namespace Token

/-- The text a token is mentioned with. -/
def name : Token → String
  | .word _ => "word"
  | .keyword text | .operator text => "\"" ++ text ++ "\""
  | .redirect .. | .document .. => "redirection"
  | .newline => "newline"
  | .finish => "end of file"

/-- A token that ends a list of commands. -/
def endsList : Token → Bool
  | .keyword text => closers.contains text
  | .operator text => text == ")" || text == ";;"
  | .finish => true
  | _ => false

/-- A keyword, if a token is a word that can be one. -/
def asKeyword : Token → Token
  | .word w =>
    match w.literal? with
    | some text => if keywords.contains (String.ofList text) then .keyword (String.ofList text)
      else .word w
    | none => .word w
  | t => t

end Token

/-- Tells which token stands where something else should stand. -/
def Reading.unexpected {α : Type} (t : Token) (expected : Option String := none) : Reading α :=
  Reading.fault (t.name ++ " unexpected" ++
    match expected with
    | some text => " (expecting " ++ text ++ ")"
    | none => "")

/-- The text up to an unescaped backquote, without the escapes inside it, and the rest. Between
double quotes such a quote can be escaped as well. -/
def backquoted? (quoted : Bool) : List Char → Option (List Char × List Char)
  | [] => none
  | '\x60' :: rest => some ([], rest)
  | '\\' :: '\n' :: rest => backquoted? quoted rest
  | '\\' :: c :: rest =>
    (backquoted? quoted rest).map fun (inner, after) =>
      (if c = '\x60' ∨ c = '\\' ∨ c = '$' ∨ (quoted ∧ c = '"') then c :: inner
        else '\\' :: c :: inner, after)
  | c :: rest => (backquoted? quoted rest).map fun (inner, after) => (c :: inner, after)

/-- A text cut after each line end. -/
def endedLines (cs : List Char) : List (List Char) :=
  cs.foldr (fun c lines =>
    match lines with
    | line :: rest => if c = '\n' then [c] :: lines else (c :: line) :: rest
    | [] => [[c]]) []

/-- A line ends in a backslash that stands for itself no more. -/
def isContinued (line : List Char) : Bool :=
  ((line.filter (· != '\n')).reverse.takeWhile (· == '\\')).length % 2 == 1

/-- The lines of a document up to the line that ends it, and the lines after that. Where expansions
happen, the line after a backslash belongs to the line before it and ends nothing. -/
def documentLines (d : Announced) (continued : Bool) :
    List (List Char) → List (List Char) × List (List Char)
  | [] => ([], [])
  | line :: lines =>
    let line := if d.withoutTabs then line.dropWhile (· == '\t') else line
    if !continued && line.filter (· != '\n') == d.ending then ([], lines)
    else
      let (body, after) := documentLines d (d.expands && isContinued line) lines
      (line :: body, after)

/-- The number of line ends in a text. -/
def lineEnds (cs : List Char) : Nat := cs.count '\n'

end SoloBuild.Shell
