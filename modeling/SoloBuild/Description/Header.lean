import SoloBuild.Description.Region
import SoloBuild.Description.Target
import SoloBuild.Text.Blank
import SoloBuild.Text.WordChar

/-!
# Declaration headers

A declaration of a target is recognised by its header: a keyword at a word boundary, an opening
parenthesis, and the name in quotes, with blanks allowed around the parenthesis. The text is
searched from left to right and a header found is not searched again; of the headers found, those
whose keyword stands in code are declarations.
-/

namespace SoloBuild.Description

open Text

/-- What follows the quote that the text begins with. -/
def afterQuote? : List Char → Option (List Char)
  | [] => none
  | c :: cs => if c = '\'' ∨ c = '"' then some cs else none

/-- What follows the header that the text begins with: `keyword`, a parenthesis and the quoted
name. The two quotes need not be of the same kind. -/
def afterHeader? (keyword name text : List Char) : Option (List Char) :=
  (afterFront? keyword text).bind fun rest =>
    (afterFront? ['('] (skipBlanks rest)).bind fun rest =>
      (afterQuote? (skipBlanks rest)).bind fun rest =>
        (afterFront? name rest).bind afterQuote?

/-- A header in a document: the byte offsets at which it begins and ends. -/
structure Header where
  kind : TargetKind
  start : Nat
  stop : Nat
  deriving DecidableEq, Repr

/-- The declarations' headers in a text. `before` is the character before the text, `skip` counts
the characters that belong to a header already found, and `offset` is the offset of the text. -/
def headersFrom (kind : TargetKind) (name : List Char) :
    (before : Option Char) → (skip offset : Nat) → List Char → List Region → List Header
  | _, _, _, [], _ => []
  | _, _, _, _, [] => []
  | _, skip + 1, offset, c :: cs, _ :: regions =>
    headersFrom kind name (some c) skip (offset + c.utf8Size) cs regions
  | before, 0, offset, c :: cs, region :: regions =>
    -- A keyword inside a longer word is none.
    let found :=
      if isWordBoundary before (some c) then afterHeader? kind.keyword.toList name (c :: cs)
      else none
    match found with
    | none => headersFrom kind name (some c) 0 (offset + c.utf8Size) cs regions
    | some rest =>
      let length := (c :: cs).length - rest.length
      let header : Header := ⟨kind, offset, offset + byteLength ((c :: cs).take length)⟩
      -- A header outside code is no declaration, but its text is used up as well.
      let others :=
        headersFrom kind name (some c) (length - 1) (offset + c.utf8Size) cs regions
      if region = .code then header :: others else others

/-- The headers of the declarations of `name` in a text, kind by kind. -/
def headers (text : List Char) (name : List Char) (kinds : List TargetKind) : List Header :=
  kinds.flatMap fun kind => headersFrom kind name none 0 0 text (classify text)

end SoloBuild.Description
