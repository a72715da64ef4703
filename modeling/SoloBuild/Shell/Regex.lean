import SoloBuild.Shell.CharSet
import SoloBuild.Text.Digits

/-!
# Regular expressions

Basic and extended regular expressions, and the longest of their leftmost matches. Groups are
numbered by their opening brackets, and can be referred to.
-/

namespace SoloBuild.Shell

/-- A place in a text that a match can depend on without using it up. -/
inductive Anchor where
  | start
  | stop
  /-- A word begins or ends. -/
  | wordEdge (isEdge : Bool)
  | wordStart
  | wordStop
  deriving DecidableEq, Repr

/-- A regular expression. -/
inductive Regex where
  | empty
  | oneOf (s : CharSet)
  | anchor (a : Anchor)
  | group (number : Nat) (r : Regex)
  /-- What a group has matched. -/
  | again (group : Nat)
  | seq (first second : Regex)
  | either (first second : Regex)
  | repeated (r : Regex) (least : Nat) (most : Option Nat)
  deriving Repr

/-- A place in a text: the character before it, the text after it, and what groups have matched. -/
structure TextPlace where
  before : Option Char := none
  rest : List Char
  groups : List (Nat × List Char) := []
  deriving Repr

/-- A character of a word. -/
def isWordByte (c : Char) : Bool := c.isAlphanum || c == '_'

namespace Anchor

/-- An anchor holds at a place. -/
def holds (p : TextPlace) : Anchor → Bool
  | start => p.before.isNone
  | stop => p.rest.isEmpty
  | wordEdge isEdge => (p.before.any isWordByte != p.rest.head?.any isWordByte) == isEdge
  | wordStart => !p.before.any isWordByte && p.rest.head?.any isWordByte
  | wordStop => p.before.any isWordByte && !p.rest.head?.any isWordByte

end Anchor

namespace Regex

/-- The first of the places with the same rest. -/
def distinct (places : List TextPlace) : List TextPlace :=
  places.foldr (fun p kept =>
    p :: kept.filter fun q => q.rest.length != p.rest.length) []

/-- The places where repeated matches can end, the longest first. The first argument bounds their
number. -/
def iterated (step : TextPlace → List TextPlace) (isChar : Bool) :
    Nat → Nat → Option Nat → TextPlace → List TextPlace
  | 0, least, _, p => if least = 0 then [p] else []
  | n + 1, least, most, p =>
    let more :=
      if most = some 0 then []
      else
        ((step p).filter fun q => q.rest.length < p.rest.length || 0 < least).flatMap
          (iterated step isChar n (least - 1) (most.map (· - 1)))
    let all := if least = 0 then more ++ [p] else more
    if isChar then all else distinct all

/-- The places where a match that begins at a place can end. -/
def ends (anyCase : Bool) : Regex → TextPlace → List TextPlace
  | empty, p => [p]
  | oneOf s, p =>
    match p.rest with
    | [] => []
    | c :: rest =>
      if s.contains c || (anyCase && (s.contains c.toLower || s.contains c.toUpper)) then
        [{ p with before := some c, rest }]
      else []
  | anchor a, p => if a.holds p then [p] else []
  | group number r, p =>
    (ends anyCase r p).map fun q =>
      { q with groups := (number, p.rest.take (p.rest.length - q.rest.length)) :: q.groups }
  | again number, p =>
    let text := (p.groups.lookup number).getD []
    if text.isPrefixOf p.rest then
      [{ p with before := text.getLast?.or p.before, rest := p.rest.drop text.length }]
    else []
  | seq first second, p => (ends anyCase first p).flatMap (ends anyCase second)
  | either first second, p => distinct (ends anyCase first p ++ ends anyCase second p)
  | repeated r least most, p =>
    let isChar := match r with
      | oneOf _ => true
      | _ => false
    iterated (ends anyCase r) isChar (p.rest.length + least + 1) least most p

/-- The longest match that begins at a place. -/
def longest? (anyCase : Bool) (r : Regex) (p : TextPlace) : Option TextPlace :=
  (ends anyCase r p).foldl (fun best q =>
    match best with
    | some b => if q.rest.length < b.rest.length then some q else best
    | none => some q) none

/-- A match in a text: what is before it and in it, and the place after it. -/
structure Match where
  before : List Char
  whole : List Char
  after : TextPlace

/-- The leftmost match from a place on. -/
def findFrom? (anyCase : Bool) (r : Regex) (before : Option Char) (text : List Char) :
    Option Match :=
  match longest? anyCase r { before, rest := text } with
  | some after =>
    some { before := [], whole := text.take (text.length - after.rest.length), after }
  | none =>
    match text with
    | [] => none
    | c :: rest =>
      (findFrom? anyCase r (some c) rest).map fun m => { m with before := c :: m.before }

/-- The leftmost match in a text. -/
def find? (anyCase : Bool) (r : Regex) (text : List Char) : Option Match :=
  findFrom? anyCase r none text

/-! ## Reading expressions -/

/-- A set with one character. -/
def char (c : Char) : Regex := oneOf { negated := false, ranges := [(c, c)] }

/-- Any character. -/
def any : Regex := oneOf { negated := true, ranges := [] }

/-- The characters of words and of blanks, and those that are none. -/
def classEscape? (c : Char) : Option Regex :=
  let ranges (name : String) : List (Char × Char) := (classRanges? name.toList).getD []
  if c = 'w' then some (oneOf ⟨false, ('_', '_') :: ranges "alnum"⟩)
  else if c = 'W' then some (oneOf ⟨true, ('_', '_') :: ranges "alnum"⟩)
  else if c = 's' then some (oneOf ⟨false, ranges "space"⟩)
  else if c = 'S' then some (oneOf ⟨true, ranges "space"⟩)
  else if c = 'b' then some (anchor (.wordEdge true))
  else if c = 'B' then some (anchor (.wordEdge false))
  else if c = '<' then some (anchor .wordStart)
  else if c = '>' then some (anchor .wordStop)
  else if c = '\x60' then some (anchor .start)
  else if c = '\'' then some (anchor .stop)
  else none

/-- Why a text is no regular expression. -/
inductive Fault where
  | unmatchedBracket
  | unmatchedGroup
  | unmatchedClose
  | unmatchedBrace
  | invalidRepetition
  | invalidReference
  | trailingBackslash
  deriving DecidableEq, Repr

/-- The text that a fault is told with. -/
def Fault.message : Fault → String
  | .unmatchedBracket => "Unmatched [, [^, [:, [., or [="
  | .unmatchedGroup => "Unmatched ( or \\("
  | .unmatchedClose => "Unmatched ) or \\)"
  | .unmatchedBrace => "Unmatched \\\x7b"
  | .invalidRepetition => "Invalid preceding regular expression"
  | .invalidReference => "Invalid back reference"
  | .trailingBackslash => "Trailing backslash"

/-- What is left of an expression, and how many groups were opened before. -/
structure Source where
  rest : List Char
  groups : Nat := 0

/-- What a part of an expression is, and what is left after it. -/
abbrev Part := Except Fault (Regex × Source)

/-- How often something is repeated, as the text between braces tells, and the rest. -/
def bounds? (extended : Bool) (cs : List Char) : Option (Nat × Option Nat × List Char) :=
  let low := cs.takeWhile Char.isDigit
  let rest := cs.drop low.length
  let closed (least : Nat) (most : Option Nat) (rest : List Char) :
      Option (Nat × Option Nat × List Char) :=
    match extended, rest with
    | true, '\x7d' :: rest | false, '\\' :: '\x7d' :: rest => some (least, most, rest)
    | _, _ => none
  match rest with
  | ',' :: rest =>
    let high := rest.takeWhile Char.isDigit
    let most := if high.isEmpty then none else some (Text.decimal high)
    closed (Text.decimal low) most (rest.drop high.length)
  | rest => if low.isEmpty then none else closed (Text.decimal low) (some (Text.decimal low)) rest

/-- The quantifiers that follow an expression, applied to it. The first argument bounds their
number. -/
def quantified (extended : Bool) : Nat → Regex → Source → Part
  | 0, r, src => .ok (r, src)
  | n + 1, r, src =>
    match extended, src.rest with
    | _, '*' :: rest => quantified extended n (repeated r 0 none) { src with rest }
    | true, '+' :: rest | false, '\\' :: '+' :: rest =>
      quantified extended n (repeated r 1 none) { src with rest }
    | true, '?' :: rest | false, '\\' :: '?' :: rest =>
      quantified extended n (repeated r 0 (some 1)) { src with rest }
    | true, '\x7b' :: rest =>
      match bounds? true rest with
      | some (least, most, rest) => quantified extended n (repeated r least most) { src with rest }
      | none => .ok (r, src)
    | false, '\\' :: '\x7b' :: rest =>
      match bounds? false rest with
      | some (least, most, rest) => quantified extended n (repeated r least most) { src with rest }
      | none => .error .unmatchedBrace
    | _, _ => .ok (r, src)

mutual

/-- Alternatives, up to the end or a closing bracket. The first argument of each reader bounds the
steps. -/
def readEither (extended : Bool) : Nat → Nat → Source → Part
  | 0, _, src => .ok (empty, src)
  | n + 1, depth, src => do
    let (first, src) ← readSeq extended n depth true src
    match extended, src.rest with
    | true, '|' :: rest | false, '\\' :: '|' :: rest =>
      let (second, src) ← readEither extended n depth { src with rest }
      return (either first second, src)
    | _, _ => return (first, src)

/-- Expressions one after the other. -/
def readSeq (extended : Bool) : Nat → Nat → Bool → Source → Part
  | 0, _, _, src => .ok (empty, src)
  | n + 1, depth, isFirst, src =>
    let goOn (part : Part) : Part := do
      let (r, src) ← part
      let (r, src) ← quantified extended (src.rest.length + 1) r src
      let (more, src) ← readSeq extended n depth false src
      return (seq r more, src)
    let take (r : Regex) (rest : List Char) : Part := goOn (.ok (r, { src with rest }))
    let openGroup (rest : List Char) : Part := goOn do
      let number := src.groups + 1
      let (inner, src) ← readEither extended n (depth + 1) { rest, groups := number }
      match extended, src.rest with
      | true, ')' :: rest | false, '\\' :: ')' :: rest =>
        return (group number inner, { src with rest })
      | _, _ => .error .unmatchedGroup
    let isLast (rest : List Char) : Bool :=
      extended || rest.isEmpty || ['\\', ')'].isPrefixOf rest || ['\\', '|'].isPrefixOf rest
    match src.rest with
    | [] => .ok (empty, src)
    | '\\' :: [] => .error .trailingBackslash
    | '\\' :: c :: rest =>
      if extended = false ∧ c = '(' then openGroup rest
      else if extended = false ∧ c = ')' then
        if depth = 0 then .error .unmatchedClose else .ok (empty, src)
      else if extended = false ∧ c = '|' then .ok (empty, src)
      else if extended = false ∧ c = '\x7b' ∧ isFirst = false then
        .error .invalidRepetition
      else if c.isDigit && c != '0' then
        let number := Text.digitValue c
        if src.groups < number then .error .invalidReference else take (again number) rest
      else
        match classEscape? c with
        | some r => take r rest
        | none => take (char (if c = 'n' then '\n' else if c = 't' then '\t' else c)) rest
    | '(' :: rest => if extended then openGroup rest else take (char '(') rest
    | ')' :: rest =>
      if extended && depth != 0 then .ok (empty, src)
      else if extended then .error .unmatchedClose
      else take (char ')') rest
    | '|' :: rest => if extended then .ok (empty, src) else take (char '|') rest
    | '*' :: rest =>
      if isFirst then
        if extended then readSeq extended n depth true { src with rest } else take (char '*') rest
      else take (char '*') rest
    | '.' :: rest => take any rest
    | '^' :: rest =>
      if extended || isFirst then do
        let (more, src) ← readSeq extended n depth true { src with rest }
        return (seq (anchor .start) more, src)
      else take (char '^') rest
    | '$' :: rest =>
      if isLast rest then take (anchor .stop) rest else take (char '$') rest
    | '[' :: rest =>
      match charSet? ['^'] (Marked.ofChars rest) with
      | some (set, after) => take (oneOf set) (Marked.chars after)
      | none => .error .unmatchedBracket
    | c :: rest => take (char c) rest

end

/-- The regular expression that a text is. -/
def ofText (extended : Bool) (text : List Char) : Except Fault Regex := do
  let (r, src) ← readEither extended (4 * text.length + 4) 0 { rest := text }
  if src.rest.isEmpty then return r else .error .unmatchedClose

/-- The number of the last group that a match of an expression can have. -/
def groupCount : Regex → Nat
  | group number r => max number r.groupCount
  | seq a b | either a b => max a.groupCount b.groupCount
  | repeated r _ _ => r.groupCount
  | _ => 0

/-- The expression that matches one text and nothing else. -/
def ofFixed (text : List Char) : Regex := text.foldr (fun c r => seq (char c) r) empty

end Regex

end SoloBuild.Shell
