import SoloBuild.Proofs.FieldReading
import SoloBuild.SingleFile.Quoted

/-!
# Pieces that hold fields

A declaration is put together from pieces: what separates, values, and fields. Each piece is read
the same whatever follows it, opens and closes its braces on balance, and holds no parenthesis in
code; so does every text made of such pieces, and its fields are those of its pieces in order.

## Key results

- `readsValue_plainLiteral`, `readsValue_quote`, `readsValue_list`: the values made of literals
- `FieldCells.append`: the fields of two pieces
- `FieldCells.of_gap`, `FieldCells.of_field`: a piece that separates, and one field
-/

namespace SoloBuild.Description

open Text

/-- A text that reads as a value in code, with the cells it gives. -/
structure ReadsValue (text : List Char) (value : Value) (cells : List Cell) : Prop where
  reads : Reads (.code false) text cells (.code false)
  depth : depthAfter 1 cells = some 1
  /-- Neither a parenthesis nor a semicolon stands in code. -/
  marks : ∀ c ∈ ['(', ';'], (c, Region.code) ∉ cells
  value : ∀ rest, StartsGap rest → readValue? (skipGap (cells ++ rest)) = some (value, rest)

/-! ## Plain code -/

/-- A class of characters that opens neither a literal nor a comment. -/
theorem isCodeChar_of_class {p : Char → Bool} (hp : ∀ d ∈ ['\'', '"', '/', ';'], p d = false)
    {c : Char} (h : p c = true) : isCodeChar c = true := by
  have hne : ∀ d ∈ ['\'', '"', '/', ';'], c ≠ d := by
    rintro d hd rfl
    exact absurd ((hp c hd).symm.trans h) Bool.false_ne_true
  simp only [isCodeChar, Bool.and_eq_true, bne_iff_ne]
  exact ⟨⟨⟨hne _ (by decide), hne _ (by decide)⟩, hne _ (by decide)⟩, hne _ (by decide)⟩

theorem isCodeChar_of_isWord {c : Char} (h : isWord c = true) : isCodeChar c = true :=
  isCodeChar_of_class (by decide) h

theorem isCodeChar_of_isBlank {c : Char} (h : isBlank c = true) : isCodeChar c = true :=
  isCodeChar_of_class (by decide) h

/-- Code without a line break does not come back to the start of a line. -/
theorem lineStartAfter_false {code : List Char} (h : '\n' ∉ code) :
    lineStartAfter false code = false := by
  induction code with
  | nil => rfl
  | cons c cs ih =>
    simp only [List.mem_cons, not_or] at h
    have hc : (c == '\n') = false := by simpa using Ne.symm h.1
    rw [lineStartAfter, List.foldl_cons, hc, Bool.false_and, Bool.false_or]
    exact ih h.2

/-- Cells that lie outside code hold no braces. -/
theorem notBrace_of_mem_cellsIn {region : Region} (hregion : region ≠ .code) {text : List Char}
    {cell : Cell} (h : cell ∈ cellsIn region text) : notBrace cell := by
  obtain ⟨c, _, rfl⟩ := List.mem_map.1 h
  exact fun hcode => absurd hcode hregion

/-- A character stands in a piece of one region exactly when the text holds it. -/
theorem mem_cellsIn {c : Char} {region region' : Region} {text : List Char} :
    (c, region) ∈ cellsIn region' text ↔ c ∈ text ∧ region = region' := by
  simp only [cellsIn, List.mem_map, Prod.mk.injEq]
  constructor
  · rintro ⟨d, hd, rfl, rfl⟩; exact ⟨hd, rfl⟩
  · rintro ⟨hc, rfl⟩; exact ⟨c, hc, rfl, rfl⟩

/-- Code without braces keeps the depth. -/
theorem depthAfter_cellsIn_code {code : List Char} (hopen : '{' ∉ code) (hclose : '}' ∉ code)
    (depth : Nat) : depthAfter depth (cellsIn .code code) = some depth := by
  refine depthAfter_of_notBrace (forall_mem_cellsIn.2 fun c hc _ => ⟨?_, ?_⟩) depth
  · rintro rfl; exact hopen hc
  · rintro rfl; exact hclose hc

/-- A word holds none of the characters that structure a declaration. -/
theorem not_mem_of_isWord {word : List Char} (h : ∀ c ∈ word, isWord c = true) {c : Char}
    (hc : isWord c = false) : c ∉ word :=
  fun hmem => absurd (hc.symm.trans (h c hmem)) Bool.false_ne_true

/-! ## Values -/

/-- A literal, from what its content stands for. -/
theorem readsValue_literal {content value : List Char}
    (hread : ∀ next, ReadsAs next (.literal '\'' false) content .literal (.literal '\'' false))
    (hvalue : literalValue? '\'' (content ++ ['\'']) = some value) :
    ReadsValue (literalText content) (.literal value) (cellsIn .literal (literalText content)) := by
  constructor
  · exact reads_literal (.inl rfl) hread false
  · exact depthAfter_of_notBrace (fun _ hcell => notBrace_of_mem_cellsIn (by decide) hcell) 1
  · simp [mem_cellsIn]
  · intro rest hrest
    have hliteral := readLiteral?_append hvalue
      fun cell hcell => isLiteralCell_eq_false_of_isGap (hrest cell hcell)
    have hopen : skipGap (cellsIn .literal (literalText content) ++ rest) =
        ('\'', .literal) :: (cellsIn .literal (content ++ ['\'']) ++ rest) := rfl
    rw [hopen, readValue?]
    · simp only [cellsIn_cons, List.cons_append] at hliteral
      rw [hliteral]
      rfl

/-- A literal that stands for itself. -/
theorem readsValue_plainLiteral {content : List Char} (h : IsPlainContent content) :
    ReadsValue (literalText content) (.literal content) (cellsIn .literal (literalText content)) :=
  readsValue_literal (readsAs_literal h) (literalValue?_plain (by decide) h)

/-- The content of a quoted value stays inside its literal. -/
theorem readsAs_escape (value : List Char) (next : Option Char) :
    ReadsAs next (.literal '\'' false) (SingleFile.escape value) .literal
      (.literal '\'' false) := by
  induction value with
  | nil => exact ReadsAs.nil
  | cons c cs ih =>
    rw [SingleFile.escape]
    split
    · -- The caret escapes the character behind it, whatever that is.
      have hcaret : ∀ next, (ReadState.literal '\'' false).step next '^' =
          (.literal, .literal '\'' true) := fun _ => rfl
      have hescaped : ∀ next, (ReadState.literal '\'' true).step next c =
          (.literal, .literal '\'' false) := fun _ => rfl
      exact ReadsAs.cons (hcaret _) (ReadsAs.cons (hescaped _) ih)
    · rename_i hc
      simp only [SingleFile.isEscaped, Bool.or_eq_true, beq_iff_eq, not_or] at hc
      refine ReadsAs.cons ?_ ih
      simp [ReadState.step, hc.1.1, hc.1.2]

/-- A quoted value stands for the value. -/
theorem literalValue?_escape (value : List Char) :
    literalValue? '\'' (SingleFile.escape value ++ ['\'']) = some value := by
  induction value with
  | nil => rfl
  | cons c cs ih =>
    rw [SingleFile.escape]
    split
    · rw [List.cons_append, List.cons_append, literalValue?, ih]
      rfl
    · rename_i hc
      simp only [SingleFile.isEscaped, Bool.or_eq_true, beq_iff_eq, not_or] at hc
      rw [List.cons_append, literalValue?, ih, if_neg hc.1.2]
      · rfl
      · rintro d ds rfl
        exact absurd rfl hc.1.1

/-- A quoted value. -/
theorem readsValue_quote (value : List Char) :
    ReadsValue (SingleFile.quote value) (.literal value)
      (cellsIn .literal (SingleFile.quote value)) :=
  readsValue_literal (readsAs_escape value) (literalValue?_escape value)

/-- A reference to another field. -/
theorem readsValue_reference {name : List Char} (h : ∀ c ∈ name, isWord c = true) :
    ReadsValue ('.' :: name) (.reference name) (cellsIn .code ('.' :: name)) := by
  have hcode : ∀ c ∈ '.' :: name, isCodeChar c = true := by
    simp only [List.mem_cons]
    rintro c (rfl | hc)
    · decide
    · exact isCodeChar_of_isWord (h c hc)
  have hreads := reads_code hcode false
  rw [lineStartAfter_false (by simp [not_mem_of_isWord h (c := '\n') (by decide)])] at hreads
  constructor
  · exact hreads
  · exact depthAfter_cellsIn_code (by simp [not_mem_of_isWord h (c := '{') (by decide)])
      (by simp [not_mem_of_isWord h (c := '}') (by decide)]) 1
  · simp [mem_cellsIn, not_mem_of_isWord h (c := '(') (by decide),
      not_mem_of_isWord h (c := ';') (by decide)]
  · intro rest hrest
    have hopen : skipGap (cellsIn .code ('.' :: name) ++ rest) =
        ('.', .code) :: (cellsIn .code name ++ rest) := rfl
    rw [hopen, readValue?, readWord_append h hrest]

/-- A word. -/
theorem readsValue_word (word : List Char) (h : ∀ c ∈ word, isWord c = true) (hne : word ≠ []) :
    ReadsValue word (.word word) (cellsIn .code word) := by
  have hreads := reads_code (fun c hc => isCodeChar_of_isWord (h c hc)) false
  rw [lineStartAfter_false (not_mem_of_isWord h (by decide))] at hreads
  constructor
  · exact hreads
  · exact depthAfter_cellsIn_code (not_mem_of_isWord h (by decide))
      (not_mem_of_isWord h (by decide)) 1
  · simp [mem_cellsIn, not_mem_of_isWord h (c := '(') (by decide),
      not_mem_of_isWord h (c := ';') (by decide)]
  · intro rest hrest
    obtain ⟨c, cs, rfl⟩ := List.exists_cons_of_ne_nil hne
    have hc := h c List.mem_cons_self
    have hread := readWord_append h hrest
    have hopen : skipGap (cellsIn .code (c :: cs) ++ rest) = cellsIn .code (c :: cs) ++ rest :=
      skipGap_cons (by simp [isGap, isBlank_eq_false_of_isWord hc]) _
    -- A word character is none of the marks that begin another kind of value.
    rw [hopen, readValue?, hread]
    · rfl
    · intro cells hcells
      have : c = '{' := (Prod.mk.inj (List.cons.inj hcells).1).1
      exact absurd (this ▸ hc) (by decide)
    · intro cells hcells
      have : c = '.' := (Prod.mk.inj (List.cons.inj hcells).1).1
      exact absurd (this ▸ hc) (by decide)
    · intro d cells hcells
      cases (Prod.mk.inj (List.cons.inj hcells).1).2

/-- The text of the literals of a list. -/
def itemsText : List (List Char) → List Char
  | [] => []
  | [content] => literalText content
  | content :: contents => literalText content ++ [',', ' '] ++ itemsText contents

theorem reads_items {contents : List (List Char)}
    (h : ∀ content ∈ contents, IsPlainContent content) :
    Reads (.code false) (itemsText contents) (itemsCells contents) (.code false) := by
  induction contents with
  | nil => exact Reads.nil
  | cons content contents ih =>
    have hfirst := h content List.mem_cons_self
    have hrest := ih fun other hother => h other (List.mem_cons_of_mem content hother)
    have hliteral := reads_literal (.inl rfl) (readsAs_literal hfirst) false
    cases contents with
    | nil => exact hliteral
    | cons next contents =>
      exact (hliteral.append (reads_code (by decide) false)).append hrest

/-- The cells of the literals of a list all lie in literals, its commas and blanks apart. -/
theorem mem_itemsCells {contents : List (List Char)} {cell : Cell}
    (h : cell ∈ itemsCells contents) :
    cell.2 = .literal ∨ cell ∈ cellsIn .code [',', ' '] := by
  induction contents with
  | nil => exact absurd h List.not_mem_nil
  | cons content contents ih =>
    have hliteral : ∀ cell ∈ cellsIn .literal (literalText content), cell.2 = .literal :=
      forall_mem_cellsIn.2 fun _ _ => rfl
    cases contents with
    | nil => exact .inl (hliteral cell h)
    | cons next contents =>
      simp only [itemsCells, List.mem_append] at h
      rcases h with (h | h) | h
      · exact .inl (hliteral cell h)
      · exact .inr h
      · exact ih h

/-- A list of literals that stand for themselves. -/
theorem readsValue_list {contents : List (List Char)}
    (h : ∀ content ∈ contents, IsPlainContent content) :
    ReadsValue (['{', ' '] ++ (itemsText contents ++ [' ', '}'])) (.list contents)
      (cellsIn .code ['{', ' '] ++ (itemsCells contents ++ cellsIn .code [' ', '}'])) := by
  -- The list's own braces are the only ones in code.
  have hitems : ∀ cell ∈ itemsCells contents, notBrace cell := by
    intro cell hcell hcode
    rcases mem_itemsCells hcell with hliteral | hmem
    · cases hliteral.symm.trans hcode
    · simp only [cellsIn_cons, cellsIn_nil, List.mem_cons, List.not_mem_nil, or_false] at hmem
      rcases hmem with rfl | rfl <;> decide
  constructor
  · exact (reads_code (by decide) false).append
      ((reads_items h).append (reads_code (by decide) false))
  · have hinner : depthAfter 2 (itemsCells contents ++ cellsIn .code [' ', '}']) = some 1 := by
      rw [depthAfter_append, depthAfter_of_notBrace hitems]
      rfl
    rw [depthAfter_append]
    exact hinner
  · intro c hc hmem
    have hplain : ∀ c ∈ ['(', ';'], c ∉ ['{', ' '] ∧ c ∉ [',', ' '] ∧ c ∉ [' ', '}'] := by decide
    obtain ⟨hopen, hcomma, hclose⟩ := hplain c hc
    simp only [List.mem_append, mem_cellsIn, and_true] at hmem
    rcases hmem with hmem | hmem | hmem
    · exact hopen hmem
    · rcases mem_itemsCells hmem with hliteral | hmem
      · cases hliteral
      · exact hcomma (mem_cellsIn.1 hmem).1
    · exact hclose hmem
  · intro rest _
    -- The reader takes the brace, skips the blank behind it, and then reads the literals.
    have hopen : skipGap ((cellsIn .code ['{', ' '] ++ (itemsCells contents ++
        cellsIn .code [' ', '}'])) ++ rest) =
        ('{', .code) :: (' ', .code) :: ((itemsCells contents ++
          cellsIn .code [' ', '}']) ++ rest) := rfl
    have hskip : skipGap ((' ', .code) :: ((itemsCells contents ++
        cellsIn .code [' ', '}']) ++ rest)) =
        skipGap (itemsCells contents ++ (cellsIn .code [' ', '}'] ++ rest)) := by
      rw [List.append_assoc]
      rfl
    rw [hopen, readValue?, hskip, readItems?_append h]
    rfl

/-! ## Fields -/

/-- Cells that read as fields whatever follows them, as long as it is something that separates. -/
structure FieldCells (cells : List Cell) (fields : List Field) : Prop where
  depth : depthAfter 1 cells = some 1
  /-- Neither a parenthesis nor a semicolon stands in code. -/
  marks : ∀ c ∈ ['(', ';'], (c, Region.code) ∉ cells
  starts : ∀ rest, StartsGap rest → StartsGap (cells ++ rest)
  read : ∀ rest, StartsGap rest → readFields (cells ++ rest) = (readFields rest).map (fields ++ ·)

namespace FieldCells

variable {xs ys gap : List Cell} {fs gs : List Field}

theorem nil : FieldCells [] [] := by
  refine ⟨rfl, fun _ _ => List.not_mem_nil, fun _ h => h, fun rest _ => ?_⟩
  simp

theorem paren (h : FieldCells xs fs) : ('(', Region.code) ∉ xs :=
  h.marks '(' (by decide)

theorem append (hx : FieldCells xs fs) (hy : FieldCells ys gs) :
    FieldCells (xs ++ ys) (fs ++ gs) := by
  constructor
  · rw [depthAfter_append, hx.depth]
    exact hy.depth
  · intro c hc
    rw [List.mem_append, not_or]
    exact ⟨hx.marks c hc, hy.marks c hc⟩
  · intro rest hrest
    rw [List.append_assoc]
    exact hx.starts _ (hy.starts rest hrest)
  · intro rest hrest
    rw [List.append_assoc, hx.read _ (hy.starts rest hrest), hy.read rest hrest, Option.map_map]
    congr 1
    funext more
    simp

/-- What separates holds no braces, parentheses and semicolons in code. -/
private theorem gap_cases {cell : Cell} (h : isGap cell = true) :
    notBrace cell ∧ ∀ c ∈ ['(', ';'], cell ≠ (c, .code) := by
  constructor
  · intro hcode
    have hblank : isBlank cell.1 = true := by simpa [isGap, hcode] using h
    refine ⟨?_, ?_⟩
    · intro hc; rw [hc] at hblank; exact absurd hblank (by decide)
    · intro hc; rw [hc] at hblank; exact absurd hblank (by decide)
  · rintro c hc rfl
    have hmarks : ∀ c ∈ ['(', ';'], isGap (c, .code) = false := by decide
    exact absurd ((hmarks c hc).symm.trans h) Bool.false_ne_true

/-- What separates holds no fields. -/
theorem of_gap (h : ∀ cell ∈ gap, isGap cell = true) : FieldCells gap [] := by
  constructor
  · exact depthAfter_of_notBrace (fun cell hcell => (gap_cases (h cell hcell)).1) 1
  · exact fun c hc hmem => (gap_cases (h _ hmem)).2 c hc rfl
  · intro rest hrest
    cases gap with
    | nil => exact hrest
    | cons cell gap => exact StartsGap.of_cons (h cell List.mem_cons_self)
  · intro rest _
    rw [readFields, readFields, skipGap_append h]
    simp

end FieldCells

/-- The text of a field, given the text of its value. -/
def fieldText (name value : List Char) : List Char :=
  '.' :: (name ++ ([' ', '=', ' '] ++ value))

/-- The cells of a field, given the cells of its value. -/
def fieldCells (name : List Char) (value : List Cell) : List Cell :=
  ('.', .code) :: (cellsIn .code name ++ (cellsIn .code [' ', '=', ' '] ++ value))

section Field

variable {name text : List Char} {value : Value} {cells : List Cell}

theorem reads_field (hname : ∀ c ∈ name, isWord c = true) (h : ReadsValue text value cells)
    (lineStart : Bool) :
    Reads (.code lineStart) (fieldText name text) (fieldCells name cells) (.code false) := by
  have hpoint : ∀ c ∈ ['.'], isCodeChar c = true := by decide
  have hequals : ∀ c ∈ [' ', '=', ' '], isCodeChar c = true := by decide
  have hcode := reads_code (fun c hc => isCodeChar_of_isWord (hname c hc)) false
  rw [lineStartAfter_false (not_mem_of_isWord hname (by decide))] at hcode
  have hstart : lineStartAfter lineStart ['.'] = false := by cases lineStart <;> rfl
  have hdot := reads_code hpoint lineStart
  rw [hstart] at hdot
  exact hdot.append (hcode.append ((reads_code hequals false).append h.reads))

/-- The reader of fields reads a field. -/
theorem readField?_append (hname : ∀ c ∈ name, isWord c = true)
    (h : ReadsValue text value cells) {rest : List Cell} (hrest : StartsGap rest) :
    readField? (fieldCells name cells ++ rest) = some (⟨name, value⟩, rest) := by
  have hsplit : fieldCells name cells ++ rest =
      ('.', .code) :: (cellsIn .code name ++
        (cellsIn .code [' ', '=', ' '] ++ (cells ++ rest))) := by
    simp only [fieldCells, List.cons_append, List.append_assoc]
  have hgap : StartsGap (cellsIn .code [' ', '=', ' '] ++ (cells ++ rest)) :=
    StartsGap.of_cons (by decide)
  have hequals : afterCode? '=' (skipGap (cellsIn .code [' ', '=', ' '] ++ (cells ++ rest))) =
      some ((' ', .code) :: (cells ++ rest)) := rfl
  have hblank : skipGap ((' ', .code) :: (cells ++ rest)) = skipGap (cells ++ rest) := rfl
  rw [hsplit, readField?, afterCode?, if_pos rfl, Option.bind_some, readWord_append hname hgap]
  simp only [hequals, Option.bind_some, hblank, h.value rest hrest, Option.map_some]

/-- A field behind something that separates. -/
theorem FieldCells.of_field {gap : List Cell} (hgap : ∀ cell ∈ gap, isGap cell = true)
    (hne : gap ≠ []) (hname : ∀ c ∈ name, isWord c = true) (h : ReadsValue text value cells) :
    FieldCells (gap ++ fieldCells name cells) [⟨name, value⟩] := by
  have hsep := FieldCells.of_gap hgap
  constructor
  · have hdot : depthAfter 1 (cellsIn .code ['.']) = some 1 := rfl
    have hequals : depthAfter 1 (cellsIn .code [' ', '=', ' ']) = some 1 := rfl
    rw [depthAfter_append, hsep.depth]
    show depthAfter 1 (cellsIn .code ['.'] ++ (cellsIn .code name ++
      (cellsIn .code [' ', '=', ' '] ++ cells))) = some 1
    rw [depthAfter_append, hdot, Option.bind_some, depthAfter_append,
      depthAfter_cellsIn_code (not_mem_of_isWord hname (by decide))
        (not_mem_of_isWord hname (by decide)), Option.bind_some, depthAfter_append, hequals,
      Option.bind_some, h.depth]
  · intro c hc
    have hplain : ∀ c ∈ ['(', ';'], isWord c = false ∧ c ≠ '.' ∧ c ∉ [' ', '=', ' '] := by decide
    obtain ⟨hword, hpoint, hequals⟩ := hplain c hc
    have hdot : (c, Region.code) ≠ ('.', Region.code) := fun heq => hpoint (Prod.mk.inj heq).1
    simp only [fieldCells, List.mem_append, List.mem_cons (b := ('.', Region.code)), mem_cellsIn,
      not_or, and_true]
    exact ⟨hsep.marks c hc, hdot, not_mem_of_isWord hname hword, hequals, h.marks c hc⟩
  · intro rest _
    obtain ⟨cell, gap, rfl⟩ := List.exists_cons_of_ne_nil hne
    exact StartsGap.of_cons (hgap cell List.mem_cons_self)
  · intro rest hrest
    have hopen : skipGap ((gap ++ fieldCells name cells) ++ rest) =
        fieldCells name cells ++ rest := by
      rw [List.append_assoc, skipGap_append hgap]
      exact skipGap_cons (by decide) _
    have hshorter : rest.length < (fieldCells name cells ++ rest).length := by
      rw [fieldCells, List.cons_append, List.length_cons, List.length_append]
      omega
    have hne : fieldCells name cells ++ rest ≠ [('}', .code)] := by
      intro heq
      exact absurd (List.cons.inj heq).1 (by decide)
    rw [readFields, hopen, if_neg hne, readField?_append hname h hrest, Option.bind_some]
    simp only [hshorter, dif_pos, List.cons_append, List.nil_append]

end Field

end SoloBuild.Description
