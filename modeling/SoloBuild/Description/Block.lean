import SoloBuild.Description.Region

/-!
# Brace-delimited blocks

The block of a declaration runs from an opening brace to the brace that closes it. Only braces in
code count: braces inside literals and comments are text. Positions are byte offsets.
-/

namespace SoloBuild.Description

/-- A character of a description with its region. -/
abbrev Cell := Char × Region

/-- How the search for a closing brace ends. -/
inductive BraceMatch where
  /-- The brace at this offset closes the block. -/
  | closed (offset : Nat)
  /-- The text ends inside the block. -/
  | unclosed
  /-- A closing brace was met where nothing was open. -/
  | unopened
  deriving DecidableEq, Repr

/-- Reads on with `depth` braces open, from byte offset `offset`, to the brace that closes the last
of them. -/
def matchBraces : (depth offset : Nat) → List Cell → BraceMatch
  | _, _, [] => .unclosed
  | depth, offset, (c, region) :: cells =>
    let following := offset + c.utf8Size
    if region = .code ∧ c = '{' then matchBraces (depth + 1) following cells
    else if region = .code ∧ c = '}' then
      match depth with
      | 0 => .unopened
      | 1 => .closed offset
      | depth + 2 => matchBraces (depth + 1) following cells
    else matchBraces depth following cells

/-- The first block that opens at or after byte offset `start`, as the offsets of its two braces;
`offset` is the offset of the first cell. -/
def blockFrom (start : Nat) : (offset : Nat) → List Cell → Option (Nat × Nat)
  | _, [] => none
  | offset, (c, region) :: cells =>
    if start ≤ offset ∧ region = .code ∧ c = '{' then
      match matchBraces 1 (offset + c.utf8Size) cells with
      | .closed close => some (offset, close)
      | _ => none
    else blockFrom start (offset + c.utf8Size) cells

/-- The first block of a description that opens at or after byte offset `start`: the offsets of
its opening and its closing brace. -/
def balancedBlock (cells : List Cell) (start : Nat) : Option (Nat × Nat) :=
  blockFrom start 0 cells

end SoloBuild.Description
