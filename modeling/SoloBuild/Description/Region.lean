/-!
# Regions of a build description

Every character of a build description is code, part of a string literal, or part of a comment. A
literal opens at a quote met in code and runs through the next quote of the same kind that no `^`
escapes; it may span lines. A comment opens at `//` anywhere in code, or at a `;` that only blanks
separate from the start of its line, and runs through the end of the line.

- `length_regionsFrom`: one region for each character;
- `regionsFrom_append`: a text is classified piece by piece, given what follows each piece.
-/

namespace SoloBuild.Description

/-- What a character of a build description belongs to. -/
inductive Region where
  | code
  | literal
  | comment
  deriving DecidableEq, Repr

/-- Where the reading of a description stands between two characters. -/
inductive ReadState where
  /-- In code; `lineStart` tells whether only blanks were met since the line began. -/
  | code (lineStart : Bool)
  /-- In a literal opened by `quote`; `escaped` tells whether a `^` escapes the next character. -/
  | literal (quote : Char) (escaped : Bool)
  /-- In a comment. -/
  | comment
  deriving DecidableEq, Repr

namespace ReadState

/-- A description begins in code, at the start of a line. -/
def start : ReadState := .code true

/-- The blanks that leave a `;` at the start of its line. -/
def isIndent (c : Char) : Bool :=
  c == ' ' || c == '\t' || c == '\x0c' || c == '\r'

/-- One character, with the one after it: its region, and where the reading stands after it. -/
def step (next : Option Char) : ReadState → Char → Region × ReadState
  | .code lineStart, c =>
    if c = '\'' ∨ c = '"' then (.literal, .literal c false)
    else if c = '/' ∧ next = some '/' then (.comment, .comment)
    else if c = ';' ∧ lineStart then (.comment, .comment)
    else if c = '\n' then (.code, .code true)
    else (.code, .code (lineStart && isIndent c))
  | .literal quote escaped, c =>
    if escaped then (.literal, .literal quote false)
    else if c = '^' then (.literal, .literal quote true)
    else if c = quote then (.literal, .code false)
    else (.literal, .literal quote false)
  | .comment, c => (.comment, if c = '\n' then .code true else .comment)

/-- Where the reading stands after a text that `next` follows. -/
def after (next : Option Char) : ReadState → List Char → ReadState
  | state, [] => state
  | state, c :: cs => after next (state.step (cs.head?.or next) c).2 cs

end ReadState

/-- The regions of a text read from a state, when `next` follows the text. -/
def regionsFrom (next : Option Char) : ReadState → List Char → List Region
  | _, [] => []
  | state, c :: cs =>
    let (region, following) := state.step (cs.head?.or next) c
    region :: regionsFrom next following cs

/-- The region of each character of a description. -/
def classify (text : List Char) : List Region :=
  regionsFrom none .start text

/-- The region of each byte of a description's UTF-8 form: all bytes of a character share its
region. -/
def classifyBytes (text : List Char) : List Region :=
  (text.zip (classify text)).flatMap fun (c, region) => List.replicate c.utf8Size region

/-- One region for each character. -/
@[simp] theorem length_regionsFrom (next : Option Char) (state : ReadState) (text : List Char) :
    (regionsFrom next state text).length = text.length := by
  induction text generalizing state with
  | nil => rfl
  | cons c cs ih => simp [regionsFrom, ih]

@[simp] theorem length_classify (text : List Char) : (classify text).length = text.length :=
  length_regionsFrom ..

/-- A text is classified piece by piece, given what follows each piece. -/
theorem regionsFrom_append (next : Option Char) (state : ReadState) (xs ys : List Char) :
    regionsFrom next state (xs ++ ys) =
      regionsFrom (ys.head?.or next) state xs ++
        regionsFrom next (state.after (ys.head?.or next) xs) ys := by
  induction xs generalizing state with
  | nil => simp [regionsFrom, ReadState.after]
  | cons c cs ih =>
    have hhead : (cs ++ ys).head?.or next = cs.head?.or (ys.head?.or next) := by
      cases cs <;> simp
    simp only [List.cons_append, regionsFrom, ReadState.after, hhead, ih]

end SoloBuild.Description
