import SoloBuild.Text.Splitting

/-!
# Lines

Two readings of a text as lines. `splitLines` cuts at every newline and keeps everything else, so
joining the pieces gives the text back. `lines` reads a text file: a final newline ends the last
line instead of opening an empty one, and a carriage return before a newline belongs to the line
break.

- `joinLines_splitLines`: the pieces hold the whole text;
- `not_mem_of_mem_splitLines`: a piece holds no newline.
-/

namespace SoloBuild.Text

/-- The pieces between newlines; there is always one more of them than newlines. -/
def splitLines (text : List Char) : List (List Char) :=
  splitWhere (· == '\n') text

/-- The pieces with one newline between any two. -/
def joinLines (pieces : List (List Char)) : List Char :=
  joinWith '\n' pieces

/-- A line without the carriage return of its line break. -/
def dropReturn (line : List Char) : List Char :=
  match splitReturn line with
  | some front => front
  | none => line
where
  /-- The text before a final carriage return. -/
  splitReturn : List Char → Option (List Char)
    | [] => none
    | ['\r'] => some []
    | c :: cs => (splitReturn cs).map (c :: ·)

/-- The lines of a text file. -/
def lines (text : List Char) : List (List Char) :=
  ended (splitLines text)
where
  /-- All pieces but the last were ended by a newline; an empty last piece is no line. -/
  ended : List (List Char) → List (List Char)
    | [] => []
    | [last] => if last.isEmpty then [] else [last]
    | line :: rest => dropReturn line :: ended rest

theorem splitLines_ne_nil (text : List Char) : splitLines text ≠ [] :=
  splitWhere_ne_nil _ text

/-- The pieces hold the whole text. -/
@[simp] theorem joinLines_splitLines (text : List Char) : joinLines (splitLines text) = text :=
  joinWith_splitWhere '\n' text

theorem joinLines_singleton (piece : List Char) : joinLines [piece] = piece := rfl

/-- One newline stands between a piece and the next. -/
theorem joinLines_cons_cons (piece next : List Char) (pieces : List (List Char)) :
    joinLines (piece :: next :: pieces) = piece ++ '\n' :: joinLines (next :: pieces) := rfl

/-- A piece holds no newline. -/
theorem not_mem_of_mem_splitLines {text line : List Char} (h : line ∈ splitLines text) :
    '\n' ∉ line := fun hmem => by
  simpa using not_mark_of_mem_splitWhere h hmem

end SoloBuild.Text
