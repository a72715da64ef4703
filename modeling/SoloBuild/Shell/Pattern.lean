import SoloBuild.Shell.CharSet

/-!
# Patterns

The patterns of the shell, which describe whole texts. A character of a pattern that is quoted
stands for itself.
-/

namespace SoloBuild.Shell

/-- A part of a pattern. -/
inductive PatternPart where
  | char (c : Char)
  | anyChar
  | anyText
  | oneOf (s : CharSet)
  deriving DecidableEq, Repr

/-- The parts of a pattern. A backslash that is not quoted quotes the character after it. The first
argument bounds the number of characters. -/
def patternParts : Nat → Marked → List PatternPart
  | 0, _ => []
  | n + 1, m =>
    match m with
    | [] => []
    | ('*', false) :: rest => .anyText :: patternParts n rest
    | ('?', false) :: rest => .anyChar :: patternParts n rest
    | ('\\', false) :: (c, _) :: rest => .char c :: patternParts n rest
    | ('[', false) :: rest =>
      match charSet? ['!', '^'] (unescaped rest) with
      | some (set, after) => .oneOf set :: patternParts n after
      | none => .char '[' :: patternParts n rest
    | (c, _) :: rest => .char c :: patternParts n rest
where
  /-- The text with what a backslash quotes quoted. -/
  unescaped : Marked → Marked
    | ('\\', false) :: (c, _) :: rest => (c, true) :: unescaped rest
    | c :: rest => c :: unescaped rest
    | [] => []

/-- The ends of a text, from the text itself to the empty one. -/
def textEnds : List Char → List (List Char)
  | [] => [[]]
  | c :: cs => (c :: cs) :: textEnds cs

/-- Parts of a pattern describe a text. -/
def partsDescribe : List PatternPart → List Char → Bool
  | [], text => text.isEmpty
  | .anyText :: rest, text => (textEnds text).any fun text => partsDescribe rest text
  | .anyChar :: rest, text =>
    match text with
    | [] => false
    | _ :: text => partsDescribe rest text
  | .char c :: rest, text =>
    match text with
    | [] => false
    | d :: text => c == d && partsDescribe rest text
  | .oneOf set :: rest, text =>
    match text with
    | [] => false
    | d :: text => set.contains d && partsDescribe rest text

/-- The parts of a pattern. -/
def Marked.parts (m : Marked) : List PatternPart := patternParts (m.length + 1) m

/-- A pattern describes a text. -/
def describes (pattern : Marked) (text : List Char) : Bool := partsDescribe pattern.parts text

/-- A marked text holds a character that makes it a pattern. -/
def isPattern (m : Marked) : Bool :=
  m.any fun (c, quoted) => !quoted && (c == '*' || c == '?' || c == '[')

/-- The text that a pattern describes if it is none. -/
def unquotedText : Marked → List Char
  | ('\\', false) :: (c, _) :: rest => c :: unquotedText rest
  | (c, _) :: rest => c :: unquotedText rest
  | [] => []

/-- The shortest or longest front of a value that a pattern describes is cut off. -/
def cutFront (longest : Bool) (pattern : Marked) (value : List Char) : List Char :=
  let lengths := List.range (value.length + 1)
  let ordered := if longest then lengths.reverse else lengths
  match ordered.find? fun n => describes pattern (value.take n) with
  | some n => value.drop n
  | none => value

/-- The shortest or longest end of a value that a pattern describes is cut off. -/
def cutEnd (longest : Bool) (pattern : Marked) (value : List Char) : List Char :=
  let lengths := List.range (value.length + 1)
  let ordered := if longest then lengths else lengths.reverse
  match ordered.find? fun n => describes pattern (value.drop n) with
  | some n => value.take n
  | none => value

end SoloBuild.Shell
