import SoloBuild.FileTree.Files
import SoloBuild.Shell.ByteText
import SoloBuild.Shell.Pattern
import SoloBuild.Text.Splitting

/-!
# Fields

How an expanded word becomes fields. What expansions have put into a word is cut at the characters
that separate fields; the text of the word itself is not. Fields that are patterns stand for the
paths that they describe.
-/

namespace SoloBuild.Shell

/-- How a stretch of an expanded word is cut into fields. -/
inductive Cut where
  | never
  /-- At the characters that separate fields. -/
  | separated
  /-- Between parameters, where a character with the number zero stands, and nowhere else. -/
  | parameters
  deriving DecidableEq, Repr

/-- A stretch of an expanded word. -/
structure Stretch where
  chars : Marked
  cut : Cut := .never
  /-- The stretch makes a field even if it is empty. -/
  isQuoted : Bool := false
  deriving DecidableEq, Repr

/-- The text of stretches. -/
def Stretch.text (stretches : List Stretch) : List Char := stretches.flatMap (·.chars.chars)

/-- The pattern that stretches are. -/
def Stretch.marked (stretches : List Stretch) : Marked := stretches.flatMap (·.chars)

/-- Cutting a word into fields. -/
structure Cutter where
  /-- The fields before, the latest first. -/
  fields : List Marked := []
  /-- The characters of the field so far, the latest first. -/
  current : Marked := []
  /-- There is a field even if it has no characters. -/
  isThere : Bool := false
  /-- How many fields may still be cut, if that is bounded. -/
  left : Option Nat := none
  /-- How many characters of the last field count, if it ends before the text does. -/
  ending : Option Nat := none
  /-- The stretch before was cut between parameters. -/
  afterParameters : Bool := false

namespace Cutter

/-- Nothing has been read of the field. -/
def isFresh (c : Cutter) : Bool := c.current.isEmpty && !c.isThere

/-- The characters of the field. -/
def field (c : Cutter) : Marked :=
  let chars := c.current.reverse
  match c.ending with
  | some n => chars.take n
  | none => chars

/-- Ends a field. -/
def endField (c : Cutter) : Cutter :=
  { c with fields := c.field :: c.fields, current := [], isThere := false }

/-- A blank, or the end of a parameter, separates fields together with others of its kind. -/
def isSoft (c : Char) : Bool := c == ' ' || c == '\t' || c == '\n' || c == '\x00'

/-- What follows a separator without being a separator of its own: blanks, and one other separator
after a blank. -/
def skipped (isSeparator : Char → Bool) : Bool → Marked → Marked
  | afterBlank, (c, quoted) :: rest =>
    if !isSeparator c then (c, quoted) :: rest
    else if isSoft c then skipped isSeparator afterBlank rest
    else if afterBlank then skipped isSeparator false rest
    else (c, quoted) :: rest
  | _, [] => []

/-- Cuts characters. The last field that may be cut gets all that is left, without the separators
that would end it. The first argument bounds the number of characters. -/
def cutChars (separators : List Char) (onlyParameters : Bool) :
    Nat → Bool → Cutter → Marked → Cutter
  | 0, _, c, _ => c
  | _ + 1, _, c, [] => c
  | n + 1, afterBlank, c, (d, quoted) :: rest =>
    let isSeparator (d : Char) : Bool :=
      d == '\x00' || (!onlyParameters && separators.contains d)
    let taken := { c with current := (d, quoted) :: c.current }
    let length := c.current.length
    if c.left = some 0 then
      if isSeparator d && isSoft d then
        cutChars separators onlyParameters n afterBlank
          { taken with ending := c.ending.or (some length) } rest
      else
        let ending := if isSeparator d && afterBlank then c.ending else none
        cutChars separators onlyParameters n false { taken with ending } rest
    else if isSeparator d then
      let afterBlank := if c.afterParameters || onlyParameters then afterBlank else isSoft d
      if c.isFresh && afterBlank then cutChars separators onlyParameters n false c rest
      else if c.left = some 1 then
        cutChars separators onlyParameters n afterBlank
          { taken with left := some 0, ending := some length } rest
      else
        let rest := if onlyParameters then rest else skipped isSeparator afterBlank rest
        cutChars separators onlyParameters n afterBlank
          { c.endField with left := c.left.map (· - 1) } rest
    else cutChars separators onlyParameters n afterBlank taken rest

/-- Reads a stretch. -/
def add (separators : List Char) (c : Cutter) (s : Stretch) : Cutter :=
  match s.cut with
  | .never =>
    { c with current := s.chars.reverse ++ c.current, isThere := c.isThere || s.isQuoted }
  | .separated =>
    { cutChars separators false (s.chars.length + 1) false c s.chars with afterParameters := false }
  | .parameters =>
    { cutChars separators true (s.chars.length + 1) false c s.chars with afterParameters := true }

/-- The fields in the end. After parameters there is one more, even if it is empty. -/
def finish (c : Cutter) : List Marked :=
  (if c.isFresh && !c.afterParameters then c else c.endField).fields.reverse

end Cutter

/-- The fields of a word, at most so many of them if that is bounded. -/
def fieldsOf (separators : List Char) (most : Option Nat) (stretches : List Stretch) :
    List Marked :=
  (stretches.foldl (Cutter.add separators) { left := most }).finish

/-! ## Paths that patterns describe -/

/-- The names in a directory, in order. -/
def namesIn (t : FileTree) (place : Location) : List String :=
  ((t.below place).filterMap fun (names, _) =>
    match names with
    | [name] => some (byteText name)
    | _ => none).mergeSort fun a b => a ≤ b

/-- A path leads to something, which may be a link that leads nowhere. -/
def isThere (t : FileTree) (path : List Char) : Bool :=
  match t.find (pathOf (String.ofList path)) false with
  | .ok ⟨_, some _⟩ => true
  | _ => false

/-- The paths that begin with a text and go on as patterns say, name by name. Names that begin with
a dot are described by patterns that do. -/
def pathsFrom (t : FileTree) (start : List Char) : List Marked → List (List Char)
  | [] => []
  | pattern :: rest =>
    if isPattern pattern then
      let dir := if start.isEmpty then "." else String.ofList start
      let names := match t.find (pathOf dir) true with
        | .ok ⟨place, some .directory⟩ =>
          "." :: ".." :: namesIn t place
        | _ => []
      let startsWithDot (m : Marked) : Bool := (unquotedText m).head? == some '.'
      let found := names.filter fun name =>
        (name.toList.head? != some '.' || startsWithDot pattern) && describes pattern name.toList
      match rest with
      | [] => found.map fun name => start ++ name.toList
      | rest => found.flatMap fun name => pathsFrom t (start ++ name.toList ++ ['/']) rest
    else
      let path := start ++ unquotedText pattern
      match rest with
      | [] => if isThere t path then [path] else []
      | rest => pathsFrom t (path ++ ['/']) rest

/-- A pattern cut at the separators of paths. -/
def patternNames (m : Marked) : List Marked :=
  m.foldr (fun c names =>
    match names with
    | name :: rest => if c.1 = '/' then [] :: name :: rest else (c :: name) :: rest
    | [] => []) [[]]

/-- The paths that a field describes, in order; a field that describes none stands for itself. -/
def globbed (t : FileTree) (m : Marked) : List String :=
  let plain := [String.ofList m.chars]
  if isPattern m then
    match pathsFrom t [] (patternNames m) with
    | [] => plain
    | paths => (paths.map String.ofList).mergeSort fun a b => a ≤ b
  else plain

end SoloBuild.Shell
