/-!
# Sets of characters

The bracket expressions of patterns and regular expressions: single characters, ranges and classes.
A character that is quoted stands for itself.
-/

namespace SoloBuild.Shell

/-- A text in which some characters are quoted. -/
abbrev Marked := List (Char × Bool)

/-- The characters of a marked text. -/
def Marked.chars (m : Marked) : List Char := m.map (·.1)

/-- A text in which nothing is quoted. -/
def Marked.ofChars (cs : List Char) : Marked := cs.map fun c => (c, false)

/-- The members of a bracket expression. -/
structure CharSet where
  negated : Bool
  ranges : List (Char × Char)
  deriving DecidableEq, Repr

/-- A character is in the set. -/
def CharSet.contains (s : CharSet) (c : Char) : Bool :=
  (s.ranges.any fun (lo, hi) => lo ≤ c && c ≤ hi) != s.negated

/-- The named classes. -/
def characterClasses : List (String × List (Char × Char)) :=
  [("digit", [('0', '9')]), ("alpha", [('a', 'z'), ('A', 'Z')]),
    ("alnum", [('a', 'z'), ('A', 'Z'), ('0', '9')]), ("upper", [('A', 'Z')]),
    ("lower", [('a', 'z')]), ("space", [('\t', '\r'), (' ', ' ')]),
    ("blank", [('\t', '\t'), (' ', ' ')]), ("cntrl", [('\x00', '\x1f'), ('\x7f', '\x7f')]),
    ("graph", [('!', '~')]), ("print", [(' ', '~')]),
    ("punct", [('!', '/'), (':', '@'), ('[', '\x60'), ('\x7b', '~')]),
    ("xdigit", [('0', '9'), ('a', 'f'), ('A', 'F')])]

/-- The characters of a named class. -/
def classRanges? (name : List Char) : Option (List (Char × Char)) :=
  characterClasses.lookup (String.ofList name)

/-- The named class that the text after an opening bracket and a colon tells, and the rest. -/
def namedClass? (m : Marked) : Option (List (Char × Char) × Marked) :=
  let name := m.takeWhile fun c => c.1.isAlpha
  match m.drop name.length with
  | (':', _) :: (']', _) :: rest =>
    (classRanges? (Marked.chars name)).map fun ranges => (ranges, rest)
  | _ => none

/-- The members of a set up to its closing bracket, and the rest. The first argument bounds the
number of characters. -/
def setMembers? : Nat → Bool → Marked → Option (List (Char × Char) × Marked)
  | 0, _, _ => none
  | n + 1, isFirst, m =>
    let add (ranges : List (Char × Char)) (rest : Marked) :
        Option (List (Char × Char) × Marked) :=
      (setMembers? n false rest).map fun (rs, after) => (ranges ++ rs, after)
    match m with
    | [] => none
    | (c, quoted) :: rest =>
      if c = ']' ∧ quoted = false ∧ isFirst = false then some ([], rest)
      else
        let named := match c, quoted, rest with
          | '[', false, (':', false) :: after => namedClass? after
          | _, _, _ => none
        match named, rest with
        | some (ranges, after), _ => add ranges after
        | none, ('-', false) :: (hi, hiQuoted) :: after =>
          if hi = ']' ∧ hiQuoted = false then add [(c, c)] rest else add [(c, hi)] after
        | none, _ => add [(c, c)] rest

/-- The set that the text after an opening bracket describes, and the rest. -/
def charSet? (negations : List Char) (m : Marked) : Option (CharSet × Marked) :=
  let negated := match m with
    | (c, false) :: _ => negations.contains c
    | _ => false
  let body := if negated then m.tail else m
  (setMembers? (body.length + 1) true body).map fun (ranges, rest) => ({ negated, ranges }, rest)

end SoloBuild.Shell
