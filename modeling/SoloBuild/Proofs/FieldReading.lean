import SoloBuild.Proofs.BlockSearch
import SoloBuild.Proofs.TextPieces

/-!
# Reading the fields of a declaration

The block of a declaration holds fields: a name after a point, an equals sign, and a value. This
module reads the fields back from a text, over its characters with their regions: blanks in code
and comments separate, a literal is read with its escapes, and a block is only read when nothing
but fields stands in it.

## Key results

- `skipGap_append`: what separates is skipped
- `readWord_append`, `readLiteral?_append`, `readItems?_append`: the readers, whatever follows
- `literalValue?_plain`: without quotes and escapes, a literal stands for its text
-/

namespace SoloBuild.Description

open Text

/-- The value of a field. -/
inductive Value where
  /-- A literal, without its quotes and escapes. -/
  | literal (content : List Char)
  /-- A list of literals. -/
  | list (contents : List (List Char))
  /-- The value of another field. -/
  | reference (name : List Char)
  /-- A word, as `false` is. -/
  | word (letters : List Char)
  deriving DecidableEq, Repr

/-- A field of a declaration. -/
structure Field where
  name : List Char
  value : Value
  deriving DecidableEq, Repr

/-! ## The reader -/

/-- A cell that separates: a blank in code, or part of a comment. -/
def isGap (cell : Cell) : Bool :=
  cell.2 == .comment || (cell.2 == .code && isBlank cell.1)

/-- A cell of a name or a word. -/
def isWordCell (cell : Cell) : Bool :=
  cell.2 == .code && isWord cell.1

/-- A cell of a literal. -/
def isLiteralCell (cell : Cell) : Bool :=
  cell.2 == .literal

/-- The cells after what separates. -/
def skipGap (cells : List Cell) : List Cell :=
  cells.dropWhile isGap

theorem length_skipGap_le (cells : List Cell) : (skipGap cells).length ≤ cells.length :=
  (List.dropWhile_suffix isGap).length_le

/-- What follows a character of code. -/
def afterCode? (c : Char) : List Cell → Option (List Cell)
  | [] => none
  | cell :: cells => if cell = (c, .code) then some cells else none

/-- The word that the cells begin with, and what follows it. -/
def readWord (cells : List Cell) : List Char × List Cell :=
  ((cells.takeWhile isWordCell).map Prod.fst, cells.dropWhile isWordCell)

/-- What a literal stands for, from the text after its opening quote; its closing quote has to be
    the last character. -/
def literalValue? (quote : Char) : List Char → Option (List Char)
  | [] => none
  -- An escaped character stands for itself, a quote as well.
  | '^' :: c :: cs => (literalValue? quote cs).map (c :: ·)
  | c :: cs =>
    if c = quote then
      if cs.isEmpty then some [] else none
    else (literalValue? quote cs).map (c :: ·)

/-- The value of the literal that the cells begin with, and what follows it. -/
def readLiteral? (cells : List Cell) : Option (List Char × List Cell) :=
  match (cells.takeWhile isLiteralCell).map Prod.fst with
  | [] => none
  | quote :: text =>
    (literalValue? quote text).map fun content => (content, cells.dropWhile isLiteralCell)

/-- The cells after one comma, with what separates around it. -/
def skipComma (cells : List Cell) : List Cell :=
  match afterCode? ',' (skipGap cells) with
  | some rest => skipGap rest
  | none => skipGap cells

/-- The literals of a list up to its closing brace, and what follows it. -/
def readItems? (cells : List Cell) : Option (List (List Char) × List Cell) :=
  match afterCode? '}' cells with
  | some rest => some ([], rest)
  | none =>
    (readLiteral? cells).bind fun (content, rest) =>
      -- A literal is never empty, so the test never fails; it is there for the recursion.
      if _h : (skipComma rest).length < cells.length then
        (readItems? (skipComma rest)).map fun (contents, rest) => (content :: contents, rest)
      else none
termination_by cells.length

/-- The value that the cells begin with, and what follows it. -/
def readValue? : List Cell → Option (Value × List Cell)
  | ('{', .code) :: cells => (readItems? (skipGap cells)).map fun (contents, rest) =>
      (.list contents, rest)
  | ('.', .code) :: cells => some (.reference (readWord cells).1, (readWord cells).2)
  | (c, .literal) :: cells => (readLiteral? ((c, .literal) :: cells)).map fun (content, rest) =>
      (.literal content, rest)
  | cells =>
    if (readWord cells).1.isEmpty then none
    else some (.word (readWord cells).1, (readWord cells).2)

/-- The field that the cells begin with, and what follows it. -/
def readField? (cells : List Cell) : Option (Field × List Cell) :=
  (afterCode? '.' cells).bind fun rest =>
    let (name, rest) := readWord rest
    (afterCode? '=' (skipGap rest)).bind fun rest =>
      (readValue? (skipGap rest)).map fun (value, rest) => (⟨name, value⟩, rest)

/-- The fields up to the closing brace that ends the cells. -/
def readFields (cells : List Cell) : Option (List Field) :=
  if skipGap cells = [('}', .code)] then some []
  else
    (readField? (skipGap cells)).bind fun (field, rest) =>
      if _h : rest.length < (skipGap cells).length then (readFields rest).map (field :: ·) else none
termination_by cells.length
decreasing_by exact Nat.lt_of_lt_of_le _h (length_skipGap_le cells)

/-- The fields of a declaration: what stands in its block, when that is fields only and the block
    ends the text. -/
def fields? (text : List Char) : Option (List Field) :=
  match (cellsFrom none .start text).dropWhile (· != ('{', .code)) with
  | [] => none
  | _ :: cells => readFields cells

/-! ## What separates -/

/-- The cells begin with one that separates, if at all. -/
def StartsGap (cells : List Cell) : Prop :=
  ∀ cell ∈ cells.head?, isGap cell = true

theorem StartsGap.of_cons {cell : Cell} {cells : List Cell} (h : isGap cell = true) :
    StartsGap (cell :: cells) := by
  intro first hfirst
  rwa [← Option.some.inj hfirst]

theorem skipGap_append {xs : List Cell} (h : ∀ cell ∈ xs, isGap cell = true) (ys : List Cell) :
    skipGap (xs ++ ys) = skipGap ys :=
  List.dropWhile_append_of_pos h

theorem skipGap_cons {cell : Cell} (h : isGap cell = false) (cells : List Cell) :
    skipGap (cell :: cells) = cell :: cells := by
  rw [skipGap, List.dropWhile_cons_of_neg (by simp [h])]

/-- A cell that separates belongs to no word. -/
theorem isWordCell_eq_false_of_isGap {cell : Cell} (h : isGap cell = true) :
    isWordCell cell = false := by
  obtain ⟨c, region⟩ := cell
  cases region with
  | code =>
    have hc : isBlank c = true := by simpa [isGap] using h
    simp [isWordCell, isWord_eq_false_of_isBlank hc]
  | literal => rfl
  | comment => rfl

/-- A cell that separates belongs to no literal. -/
theorem isLiteralCell_eq_false_of_isGap {cell : Cell} (h : isGap cell = true) :
    isLiteralCell cell = false := by
  obtain ⟨c, region⟩ := cell
  cases region with
  | code => rfl
  | literal => cases h
  | comment => rfl

theorem length_skipComma_le (cells : List Cell) : (skipComma cells).length ≤ cells.length := by
  have hgap := length_skipGap_le cells
  rw [skipComma]
  split
  · rename_i rest hrest
    cases hcells : skipGap cells with
    | nil => rw [hcells] at hrest; cases hrest
    | cons cell following =>
      have hfollowing := length_skipGap_le following
      rw [hcells, List.length_cons] at hgap
      rw [hcells, afterCode?] at hrest
      split at hrest
      · obtain rfl := Option.some.inj hrest
        omega
      · cases hrest
  · exact hgap

/-! ## Reading values -/

theorem readWord_append {word : List Char} (h : ∀ c ∈ word, isWord c = true) {rest : List Cell}
    (hrest : StartsGap rest) : readWord (cellsIn .code word ++ rest) = (word, rest) := by
  have hword : ∀ cell ∈ cellsIn .code word, isWordCell cell = true :=
    forall_mem_cellsIn.2 fun c hc => by simpa [isWordCell] using h c hc
  have ⟨htake, hdrop⟩ := takeWhile_dropWhile_append hword
    fun cell hcell => isWordCell_eq_false_of_isGap (hrest cell hcell)
  rw [readWord, htake, hdrop, map_fst_cellsIn]

theorem readLiteral?_append {quote : Char} {text content : List Char}
    (h : literalValue? quote text = some content) {rest : List Cell}
    (hrest : ∀ cell ∈ rest.head?, isLiteralCell cell = false) :
    readLiteral? (cellsIn .literal (quote :: text) ++ rest) = some (content, rest) := by
  have hliteral : ∀ cell ∈ cellsIn .literal (quote :: text), isLiteralCell cell = true :=
    forall_mem_cellsIn.2 fun _ _ => rfl
  have ⟨htake, hdrop⟩ := takeWhile_dropWhile_append hliteral hrest
  rw [readLiteral?, htake, hdrop, map_fst_cellsIn]
  simp only [h, Option.map_some]

/-- Without quotes and escapes, a literal stands for its text. -/
theorem literalValue?_plain {quote : Char} (hquote : quote ≠ '^') {content : List Char}
    (h : ∀ c ∈ content, c ≠ quote ∧ c ≠ '^') :
    literalValue? quote (content ++ [quote]) = some content := by
  induction content with
  | nil => simp [literalValue?]
  | cons c cs ih =>
    obtain ⟨hc, hcaret⟩ := h c List.mem_cons_self
    have htail := ih fun d hd => h d (List.mem_cons_of_mem c hd)
    rw [List.cons_append, literalValue?, htail, if_neg hc]
    · rfl
    · rintro d ds rfl
      exact absurd rfl hcaret

/-- The text of a literal between single quotes. -/
def literalText (content : List Char) : List Char :=
  '\'' :: (content ++ ['\''])

/-- The cells of the literals of a list. -/
def itemsCells : List (List Char) → List Cell
  | [] => []
  | [content] => cellsIn .literal (literalText content)
  | content :: contents =>
    cellsIn .literal (literalText content) ++ cellsIn .code [',', ' '] ++ itemsCells contents

/-- A text that stands for itself between single quotes. -/
def IsPlainContent (content : List Char) : Prop :=
  ∀ c ∈ content, c ≠ '\'' ∧ c ≠ '^'

instance (content : List Char) : Decidable (IsPlainContent content) :=
  inferInstanceAs (Decidable (∀ c ∈ content, _))

/-- After a literal of a list the other literals follow, over a comma if there are any. -/
private theorem exists_after_item (content : List Char) (contents : List (List Char))
    (rest : List Cell) :
    ∃ more, itemsCells (content :: contents) ++ (cellsIn .code [' ', '}'] ++ rest) =
        cellsIn .literal (literalText content) ++ more ∧
      (∀ cell ∈ more.head?, isLiteralCell cell = false) ∧
      skipComma more = skipGap (itemsCells contents ++ (cellsIn .code [' ', '}'] ++ rest)) := by
  cases contents with
  | nil => exact ⟨_, rfl, by simp [isLiteralCell], rfl⟩
  | cons next contents =>
    refine ⟨cellsIn .code [',', ' '] ++ itemsCells (next :: contents) ++
      (cellsIn .code [' ', '}'] ++ rest), ?_, by simp [isLiteralCell], rfl⟩
    simp only [itemsCells, List.append_assoc]

theorem readItems?_append {contents : List (List Char)}
    (h : ∀ content ∈ contents, IsPlainContent content) (rest : List Cell) :
    readItems? (skipGap (itemsCells contents ++ (cellsIn .code [' ', '}'] ++ rest))) =
      some (contents, rest) := by
  induction contents with
  | nil =>
    have hclose : skipGap (itemsCells [] ++ (cellsIn .code [' ', '}'] ++ rest)) =
        ('}', .code) :: rest := rfl
    rw [hclose, readItems?]
    rfl
  | cons content contents ih =>
    obtain ⟨more, hcells, hhead, hmore⟩ := exists_after_item content contents rest
    have hfirst := h content List.mem_cons_self
    have hliteral : readLiteral? (cellsIn .literal (literalText content) ++ more) =
        some (content, more) :=
      readLiteral?_append (literalValue?_plain (by decide) hfirst) hhead
    have hopen : skipGap (cellsIn .literal (literalText content) ++ more) =
        cellsIn .literal (literalText content) ++ more := rfl
    have hbrace : afterCode? '}' (cellsIn .literal (literalText content) ++ more) = none := rfl
    -- The reader goes on only over fewer cells; the literal's own cells are the difference.
    have hlength := length_skipComma_le more
    have hshorter : (skipComma more).length <
        (cellsIn .literal (literalText content) ++ more).length := by
      rw [literalText, cellsIn_cons, List.cons_append, List.length_cons, List.length_append]
      omega
    rw [hmore] at hshorter
    have hrest := ih fun other hother => h other (List.mem_cons_of_mem content hother)
    rw [hcells, hopen, readItems?]
    simp only [hbrace, hliteral, Option.bind_some, hmore, hshorter, dif_pos, hrest,
      Option.map_some]

end SoloBuild.Description
