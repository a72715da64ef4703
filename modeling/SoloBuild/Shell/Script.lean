/-!
# Scripts

What the text of a shell script stands for. A word is a list of pieces: text, quoted or not, and
expansions, which may hold words and whole scripts of their own. A command is simple, or is put
together from other commands.
-/

namespace SoloBuild.Shell

/-- What is made of the value of a parameter. -/
inductive Use where
  | value
  /-- The number of characters. -/
  | length
  /-- A word stands in for a value that is missing. -/
  | instead
  /-- A word becomes the value if that is missing. -/
  | assign
  /-- It is an error if the value is missing. -/
  | require
  /-- A word stands in for a value that is there. -/
  | alternative
  /-- What a pattern describes is cut off the front. -/
  | cutFront (longest : Bool)
  /-- What a pattern describes is cut off the end. -/
  | cutEnd (longest : Bool)
  /-- The text between the braces says nothing that can be done. -/
  | unknown
  deriving DecidableEq, Repr

/-- What a descriptor is redirected to. -/
inductive RedirectKind where
  | read
  | write
  /-- A file that is there is written to as well, whatever the options of the shell are. -/
  | clobber
  | append
  | readWrite
  /-- Another descriptor. -/
  | duplicate
  /-- A text below the line; the number tells which. -/
  | document (key : Nat)
  deriving DecidableEq, Repr

/-- A redirection of a descriptor to something that a word of some kind names. -/
structure Redirect (ω : Type) where
  descriptor : Nat
  kind : RedirectKind
  target : ω
  deriving Repr

mutual

/-- A piece of a word. -/
inductive Piece where
  | text (chars : List Char) (quoted : Bool)
  /-- A parameter, what is made of it, whether an empty value counts as missing, and the word that
  its use takes. -/
  | parameter (name : String) (use : Use) (emptyIsMissing : Bool) (word : List Piece)
      (quoted : Bool)
  | arithmetic (expression : List Piece) (quoted : Bool)
  /-- The output of a command. -/
  | output (body : Command) (quoted : Bool)

/-- A command of a script. Messages about it name the line it is in. -/
inductive Command where
  | simple (line : Nat) (assignments : List (String × List Piece)) (words : List (List Piece))
      (redirects : List (Redirect (List Piece)))
  | redirected (line : Nat) (body : Command) (redirects : List (Redirect (List Piece)))
  | pipeline (stages : List Command)
  | negated (body : Command)
  | both (first second : Command)
  | either (first second : Command)
  | sequence (commands : List Command)
  | background (line : Nat) (body : Command) (redirects : List (Redirect (List Piece)))
  | subshell (line : Nat) (body : Command) (redirects : List (Redirect (List Piece)))
  | conditional (test body : Command) (otherwise : Option Command)
  /-- A loop that goes on while its test succeeds, or until it does. -/
  | loop (untilSuccess : Bool) (test body : Command)
  | forEach (line : Nat) (name : String) (words : List (List Piece)) (body : Command)
  | choose (line : Nat) (subject : List Piece) (cases : List (List (List Piece) × Command))
  | define (name : String) (body : Command)
  /-- A command with the documents that its redirections name by number. -/
  | withDocuments (documents : List (Nat × List Piece)) (body : Command)

end

/-- A word before expansion. -/
abbrev Word := List Piece

namespace Piece

/-- A piece is quoted or not. -/
def quoted : Piece → Bool
  | .text _ quoted | .parameter _ _ _ _ quoted | .arithmetic _ quoted | .output _ quoted => quoted

end Piece

namespace Word

/-- Joins texts that stand side by side and are both quoted or both not. -/
def joined (w : Word) : Word :=
  w.foldr (fun piece rest =>
    match piece, rest with
    | .text front quoted, .text back alike :: more =>
      if quoted = alike then .text (front ++ back) quoted :: more else piece :: rest
    | _, _ => piece :: rest) []

/-- Some part of a word is quoted. -/
def isQuoted (w : Word) : Bool := w.any Piece.quoted

/-- The text of a word that holds nothing but unquoted text. -/
def literal? (w : Word) : Option (List Char) :=
  w.foldr (fun piece rest =>
    match piece, rest with
    | .text chars false, some more => some (chars ++ more)
    | _, _ => none) (some [])

/-- The text of a word in which nothing is expanded. -/
def plainText (w : Word) : List Char :=
  w.flatMap fun piece =>
    match piece with
    | .text chars _ => chars
    | _ => []

end Word

namespace Command

instance : Inhabited Command := ⟨.sequence []⟩

/-- The commands that a command runs one after the other. -/
def commands : Command → List Command
  | .sequence cs => cs
  | c => [c]

/-- One command after another. -/
def followedBy (first second : Command) : Command :=
  .sequence (first.commands ++ second.commands)

/-- A command that runs in the background. The redirections of a command belong to its process. -/
def inBackground : Command → Command
  | .redirected line body redirects => .background line body redirects
  | .simple line assignments words redirects =>
    .background line (.simple line assignments words redirects) []
  | .subshell line body redirects => .background line (.subshell line body redirects) []
  | c => .background 0 c []

end Command

end SoloBuild.Shell
