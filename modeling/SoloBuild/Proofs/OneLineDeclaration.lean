import SoloBuild.Proofs.InlineFields
import SoloBuild.Proofs.RewriteFields

/-!
# One line or many

A declaration can stand on one line, its fields in a row with semicolons between them, or with its
braces and its fields on lines of their own. Out of the one line fields are cut, of the many whole
lines are dropped. Both ways the same fields are kept, in the same order. What can differ is the
intermediate output that is moved: on one line a field that mentions an intermediate directory moves
the segments of every field.

## Key results

- `targetText_row`: the target of a declaration on one line is a declaration on one line again
- `reads_row`: a row of fields reads as its fields, when semicolons separate as blanks do
- `keptFields_of_fields`: what is kept of lines with one field each
- `rewritesTo_layouts`: on one line and on many the same fields are kept
-/

namespace SoloBuild.Description

open Text SingleFile

/-! ## Moving simple fields -/

theorem IsSimpleContent.moveText {content : List Char} (h : IsSimpleContent content)
    (moved : Bool) : IsSimpleContent (moveText moved content) := by
  have hsegment : IsSimpleContent "\\int\\CompileSingleFile\\".toList := by decide
  exact fun c hc => (mem_moveText hc).elim (h c) (hsegment c)

theorem Value.IsSimple.move {value : Value} (h : value.IsSimple) (moved : Bool) :
    (value.move moved).IsSimple := by
  cases value with
  | literal content => exact IsSimpleContent.moveText h moved
  | list contents =>
    intro content hcontent
    obtain ⟨old, hold, rfl⟩ := List.mem_map.1 hcontent
    exact (h old hold).moveText moved
  | reference name => exact absurd h id
  | word letters => exact absurd h id

/-- A simple field with the literals of its value changed. -/
def SimpleField.move (moved : Bool) (field : SimpleField) : SimpleField where
  toField := field.toField.move moved
  word := field.word
  ne_nil := field.ne_nil
  simple := field.simple.move moved

/-- Of a field only the value can hold a backslash. -/
theorem SimpleField.moveText_text (field : SimpleField) (moved : Bool) (rest : List Char) :
    moveText moved (field.text ++ rest) = (field.move moved).text ++ moveText moved rest := by
  have hfront : '\\' ∉ '.' :: (field.name ++ [' ', '=', ' ']) := by
    simp [backslash_not_mem_of_isWord field.word]
  have hsplit : field.text ++ rest =
      ('.' :: (field.name ++ [' ', '=', ' '])) ++ (field.value.text ++ rest) := by
    simp [Field.text, fieldText]
  rw [hsplit, moveText_append_of_not_mem hfront, Value.moveText_text field.isPlain.2]
  simp [SimpleField.move, Field.move, Field.text, fieldText]

/-! ## Reading a row -/

/-- A semicolon in code reads as a blank. -/
def blankSeparator (cell : Cell) : Cell :=
  if cell = (';', .code) then (' ', .code) else cell

/-- The fields of a declaration, when semicolons separate them as blanks and line breaks do. -/
def separatedFields? (text : List Char) : Option (List Field) :=
  match ((cellsFrom none .start text).map blankSeparator).dropWhile (· != ('{', .code)) with
  | [] => none
  | _ :: cells => readFields cells

theorem blankSeparator_of_ne {cell : Cell} (h : cell ≠ (';', .code)) : blankSeparator cell = cell :=
  if_neg h

/-- Where no semicolon stands in code, nothing reads differently. -/
theorem map_blankSeparator_of_not_mem {cells : List Cell} (h : (';', Region.code) ∉ cells) :
    cells.map blankSeparator = cells := by
  have hsame : cells.map blankSeparator = cells.map id :=
    List.map_congr_left fun cell hcell => blankSeparator_of_ne fun heq => h (heq ▸ hcell)
  rw [hsame, List.map_id]

/-- No brace comes or goes. -/
theorem depthAfter_map_blankSeparator (depth : Nat) (cells : List Cell) :
    depthAfter depth (cells.map blankSeparator) = depthAfter depth cells := by
  induction cells generalizing depth with
  | nil => rfl
  | cons cell cells ih =>
    rw [List.map_cons, blankSeparator]
    split
    · rename_i hcell
      rw [hcell]
      exact ih depth
    · obtain ⟨c, region⟩ := cell
      simp only [depthAfter, ih]

namespace FieldCells

variable {cells gap : List Cell} {fields : List Field}

/-- Fields that no semicolon separates read the same. -/
theorem map_blankSeparator (h : FieldCells cells fields) : cells.map blankSeparator = cells :=
  map_blankSeparator_of_not_mem (h.marks ';' (by decide))

/-- Fields, what separates, and the brace that closes the block. -/
theorem readFields_brace (h : FieldCells cells fields) (hgap : ∀ cell ∈ gap, isGap cell = true)
    (hne : gap ≠ []) : readFields ((cells ++ gap) ++ [('}', .code)]) = some fields := by
  have hclose : readFields (gap ++ [('}', .code)]) = some [] := by
    rw [readFields, skipGap_append hgap]
    rfl
  have hstarts : StartsGap (gap ++ [('}', .code)]) := by
    obtain ⟨cell, gap, rfl⟩ := List.exists_cons_of_ne_nil hne
    exact StartsGap.of_cons (hgap cell List.mem_cons_self)
  rw [List.append_assoc, h.read _ hstarts, hclose]
  simp

end FieldCells

/-- The fields of a declaration are those of its block. -/
theorem separatedFields?_declaration {kind : TargetKind} {name space inner : List Char}
    {cells : List Cell} {lineEnd : Bool} (hname : ∀ c ∈ name, Launcher.isTargetChar c = true)
    (hspace : IsSpace space) (hinner : Reads (.code false) inner cells (.code lineEnd)) :
    separatedFields? (declarationText kind name space inner) =
      readFields (cells.map blankSeparator ++ [('}', .code)]) := by
  have hcells := (reads_declaration kind hname hspace hinner true).cells_eq none
  have hfront : ∀ cell ∈ (headerCells kind name ++ cellsIn .code space).map blankSeparator,
      (cell != ('{', Region.code)) = true := by
    intro cell hcell
    obtain ⟨old, hold, rfl⟩ := List.mem_map.1 hcell
    rw [bne_iff_ne, blankSeparator]
    split
    · decide
    · rintro rfl
      exact open_not_mem_headerCells _ _ hspace hold
  rw [separatedFields?, ReadState.start, hcells, declarationCells, List.map_append,
    List.dropWhile_append_of_pos hfront]
  simp [blockCells, blankSeparator]

end SoloBuild.Description

namespace SoloBuild.SingleFile

open Text Description

/-! ## Rows of fields -/

/-- What stands between two fields of a row reads as blanks. -/
theorem Separator.reads (separator : Separator) :
    ∃ cells, Reads (.code false) separator.text cells (.code false) ∧
      (∀ cell ∈ cells.map blankSeparator, isGap cell = true) ∧ cells.map blankSeparator ≠ [] := by
  have hblank : Reads (.code false) [' '] [(' ', .code)] (.code false) :=
    reads_code (by decide) false
  have hsemicolon : Reads (.code false) [';'] [(';', .code)] (.code false) :=
    ⟨fun _ => rfl, fun _ => rfl⟩
  cases separator with
  | semicolon => exact ⟨_, hsemicolon.append hblank, by decide, by decide⟩
  | blank => exact ⟨_, hblank, by decide, by decide⟩

/-- A row of fields behind a separator reads as its fields, when semicolons separate as blanks do.
What is `cut` off the end of the row does not matter, as long as no field is cut. -/
theorem reads_row {cut : List Char → List Char}
    (hcut : ∀ (lead : Separator) (field : SimpleField) (rest : List Char),
      cut (lead.text ++ (field.text ++ rest)) = lead.text ++ (field.text ++ cut rest))
    (hend : ∀ lead : Separator, ∃ cells, Reads (.code false) (cut lead.text) cells (.code false) ∧
      FieldCells (cells.map blankSeparator) [])
    (lead : Separator) (items : List RowItem) :
    ∃ cells, Reads (.code false) (cut (lead.text ++ rowText items)) cells (.code false) ∧
      FieldCells (cells.map blankSeparator) (items.map fun item => item.field.toField) := by
  induction items generalizing lead with
  | nil =>
    rw [rowText_nil, List.append_nil]
    exact hend lead
  | cons item items ih =>
    obtain ⟨gap, hgap, hgapCells, hne⟩ := lead.reads
    obtain ⟨value, hvalue⟩ := Value.readsValue item.field.isPlain.2
    obtain ⟨more, hmore, hfields⟩ := ih item.separator
    have hfield := reads_field item.field.word hvalue false
    have hcells := FieldCells.of_field hgapCells hne item.field.word hvalue
    refine ⟨gap ++ (fieldCells item.field.name value ++ more), ?_, ?_⟩
    · rw [rowText_cons, RowItem.text, List.append_assoc, hcut]
      exact hgap.append (hfield.append hmore)
    · have hsame : (fieldCells item.field.name value).map blankSeparator =
          fieldCells item.field.name value := by
        refine map_blankSeparator_of_not_mem fun hmem => ?_
        exact hcells.marks ';' (by decide) (List.mem_append_right _ hmem)
      rw [List.map_append, List.map_append, hsame, ← List.append_assoc]
      exact hcells.append hfields

/-- A row as it is written. -/
theorem reads_rowText (lead : Separator) (items : List RowItem) :
    ∃ cells, Reads (.code false) (lead.text ++ rowText items) cells (.code false) ∧
      FieldCells (cells.map blankSeparator) (items.map fun item => item.field.toField) := by
  refine @reads_row id (fun _ _ _ => rfl) (fun lead => ?_) lead items
  obtain ⟨cells, hreads, hgap, -⟩ := lead.reads
  exact ⟨cells, hreads, FieldCells.of_gap hgap⟩

/-- A row without the blanks at its end. -/
theorem reads_trimEnd_rowText (lead : Separator) (items : List RowItem) :
    ∃ cells, Reads (.code false) (trimEnd (lead.text ++ rowText items)) cells (.code false) ∧
      FieldCells (cells.map blankSeparator) (items.map fun item => item.field.toField) := by
  refine reads_row (fun lead field rest => ?_) (fun lead => ?_) lead items
  · obtain ⟨htext, hne⟩ := Field.trimEnd_text field.isPlain
    have hfield : trimEnd (field.text ++ rest) = field.text ++ trimEnd rest := by
      rw [trimEnd_append]
      split
      · rename_i hrest
        rw [htext, hrest, List.append_nil]
      · rfl
    rw [trimEnd_append, hfield, if_neg (by simp [hne])]
  · cases lead with
    | semicolon =>
      exact ⟨[(';', .code)], ⟨fun _ => rfl, fun _ => rfl⟩, FieldCells.of_gap (by decide)⟩
    | blank => exact ⟨[], Reads.nil, FieldCells.nil⟩

/-! ## Rewriting a row -/

namespace RowItem

/-- An item with the literals of its field changed. -/
def move (moved : Bool) (item : RowItem) : RowItem :=
  ⟨item.field.move moved, item.separator⟩

end RowItem

theorem newline_not_mem_rowText (items : List RowItem) : '\n' ∉ rowText items := by
  induction items with
  | nil => exact List.not_mem_nil
  | cons item items ih =>
    have hseparator : '\n' ∉ item.separator.text := by cases item.separator <;> decide
    rw [rowText_cons, RowItem.text]
    simp [Field.newline_not_mem_text item.field.isPlain, hseparator, ih]

/-- What a row mentions, its fields mention: no separator is part of it. -/
theorem occursIn_rowText {c : Char} {needle : List Char} (hfirst : c ∉ [';', ' '])
    (hsemicolon : ';' ∉ c :: needle) (hblank : ' ' ∉ c :: needle) (items : List RowItem)
    (rest : List Char) :
    occursIn (c :: needle) (rowText items ++ rest) =
      ((items.any fun item => occursIn (c :: needle) item.field.text) ||
        occursIn (c :: needle) rest) := by
  induction items with
  | nil => rfl
  | cons item items ih =>
    have hitem : occursIn (c :: needle) (item.text ++ (rowText items ++ rest)) =
        (occursIn (c :: needle) item.field.text ||
          occursIn (c :: needle) (rowText items ++ rest)) := by
      rw [RowItem.text, List.append_assoc]
      cases item.separator with
      | semicolon =>
        have hskip : c ∉ [' '] := fun hmem => hfirst (List.mem_cons_of_mem ';' hmem)
        exact (occursIn_append_cons hsemicolon _ _).trans
          (congrArg _ (occursIn_append_of_not_mem hskip _))
      | blank => exact occursIn_append_cons hblank _ _
    rw [rowText_cons, List.append_assoc, hitem, ih, List.any_cons, Bool.or_assoc]

/-- Changing the text of a row changes the literals of its fields. -/
theorem moveText_rowText (moved : Bool) (items : List RowItem) (rest : List Char) :
    moveText moved (rowText items ++ rest) =
      rowText (items.map (RowItem.move moved)) ++ moveText moved rest := by
  induction items with
  | nil => rfl
  | cons item items ih =>
    have hseparator : '\\' ∉ item.separator.text := by cases item.separator <;> decide
    have hsplit : rowText (item :: items) ++ rest =
        item.field.text ++ (item.separator.text ++ (rowText items ++ rest)) := by
      simp [RowItem.text]
    rw [hsplit, SimpleField.moveText_text, moveText_append_of_not_mem hseparator, ih]
    simp [RowItem.text, RowItem.move]

/-- A field that a single-file target keeps. -/
def isKept (field : SimpleField) : Bool :=
  !isDropped {} field.text

/-- A field that mentions an intermediate directory. -/
def mentionsIntermediate (field : SimpleField) : Bool :=
  occursIn ".Intermediate".toList field.text

/-- A line that holds a row, with its literals relocated: one field that mentions an intermediate
directory moves the segments of all. -/
theorem relocate_row (items : List RowItem) :
    relocate {} ([' ', '{', ' '] ++ (rowText items ++ ['}'])) =
      [' ', '{', ' '] ++ (rowText (items.map (RowItem.move
        (items.any fun item => mentionsIntermediate item.field))) ++ ['}']) := by
  have hneedle : ".Intermediate".toList = '.' :: "Intermediate".toList := by simp
  have hmentions : occursIn ".Intermediate".toList ([' ', '{', ' '] ++ (rowText items ++ ['}'])) =
      items.any fun item => mentionsIntermediate item.field := by
    have hend : occursIn ('.' :: "Intermediate".toList) ['}'] = false := by decide
    simp only [mentionsIntermediate]
    rw [hneedle, occursIn_append_of_not_mem (by decide),
      occursIn_rowText (by decide) (by decide) (by decide), hend, Bool.or_false]
  rw [relocate_eq, hmentions, moveText_append_of_not_mem (by decide), moveText_rowText,
    moveText_of_not_mem (by decide)]

/-- The items of a row that a target keeps. -/
def keptItems (items : List RowItem) : List RowItem :=
  let kept := items.filter fun item => isKept item.field
  kept.map (RowItem.move (kept.any fun item => mentionsIntermediate item.field))

/-- The target of a declaration on one line is a declaration that begins on one line. -/
theorem targetText_row {node : TargetNode} {items : List RowItem}
    (hbody : node.body = [' ', '{', ' '] ++ (rowText items ++ ['}']))
    (hunity : ∀ item ∈ items, item.field.name = "CompilerInputUnity".toList ∨
      occursIn ({} : Settings).unityField.toList item.field.text = false) (input : Path) :
    targetText node input {} = declarationText .objectList "CompileSingleFile".toList [' ']
      (trimEnd (Separator.blank.text ++ rowText (keptItems items)) ++
        injectedFields ['\n'] input) := by
  have hline : '\n' ∉ node.body := by
    rw [hbody]
    simp [newline_not_mem_rowText items]
  have hbreak : lineBreak node.body = ['\n'] := by
    have hnone : occursIn ['\r', '\n'] node.body = false :=
      occursIn_eq_false_of_not_mem (by decide) hline
    rw [lineBreak, hnone]
    rfl
  have hkept : joinLines (keptLines {} node.bodyLines) =
      ([' '] ++ '{' :: (Separator.blank.text ++ rowText (keptItems items))) ++ '}' :: [] := by
    rw [TargetNode.bodyLines, splitLines_of_not_mem hline, hbody]
    refine (congrArg joinLines (keptLines_append_singleton {} [] _)).trans ?_
    rw [cutInlineFields_row hunity, relocate_row]
    simp [joinLines_cons, keptItems, isKept, Separator.text]
  rw [targetText, hbreak, hkept, insertFields_append _ _ List.not_mem_nil,
    trimEnd_append_cons (by decide), headerText_eq, declarationText]
  simp only [List.append_assoc, List.cons_append]

/-! ## The two layouts -/

/-- The fields in a row: semicolons between them, and a blank after the last. -/
def row : List SimpleField → List RowItem
  | [] => []
  | [field] => [⟨field, .blank⟩]
  | field :: next :: fields => ⟨field, .semicolon⟩ :: row (next :: fields)

@[simp] theorem map_field_row (fields : List SimpleField) :
    (row fields).map RowItem.field = fields := by
  induction fields with
  | nil => rfl
  | cons field fields ih =>
    cases fields with
    | nil => rfl
    | cons next fields => rw [row, List.map_cons, ih]

/-- The block of a declaration on one line, from the end of the header. -/
def oneLineText (fields : List SimpleField) : List Char :=
  [' ', '{', ' '] ++ (rowText (row fields) ++ ['}'])

theorem map_field_keptItems (fields : List SimpleField) :
    (keptItems (row fields)).map (fun item => item.field.toField) =
      (fields.filter isKept).map fun field =>
        field.toField.move ((fields.filter isKept).any mentionsIntermediate) := by
  have hkept : ((row fields).filter fun item => isKept item.field).map RowItem.field =
      fields.filter isKept := by
    rw [← map_field_row fields, List.filter_map, map_field_row]
    rfl
  rw [keptItems, List.map_map, ← hkept, List.any_map, List.map_map]
  rfl

/-- What a line with one field mentions, the field mentions. -/
theorem occursIn_fieldLine {c : Char} {needle indent trailing : List Char}
    (h : ∀ d ∈ c :: needle, ReadState.isIndent d = false) (hindent : IsIndent indent)
    (htrailing : IsIndent trailing) (field : Field) :
    occursIn (c :: needle) (BodyLine.text (.field indent field trailing)) =
      occursIn (c :: needle) field.text := by
  have hnot : ∀ {blanks : List Char}, IsIndent blanks → ∀ d ∈ c :: needle, d ∉ blanks :=
    fun hblanks d hd hmem => absurd ((h d hd).symm.trans (hblanks d hmem)) Bool.false_ne_true
  rw [BodyLine.text, occursIn_append_of_not_mem (hnot hindent c List.mem_cons_self),
    occursIn_append_of_disjoint (hnot htrailing)]

/-- A line with one field keeps the field, or nothing. -/
theorem keptFields_fieldLine {indent trailing : List Char} (hindent : IsIndent indent)
    (htrailing : IsIndent trailing) (field : SimpleField) (lines : List BodyLine) :
    keptFields (.field indent field.toField trailing :: lines) =
      if isKept field then field.toField.move (mentionsIntermediate field) :: keptFields lines
      else keptFields lines := by
  have hsame : ∀ needle ∈ [".CompilerInputUnity", "'Copy_", ".Intermediate"],
      occursIn needle.toList (BodyLine.text (.field indent field.toField trailing)) =
        occursIn needle.toList field.text := by
    intro needle hneedle
    have hcons : ∃ c cs, needle.toList = c :: cs ∧ ∀ d ∈ c :: cs, ReadState.isIndent d = false := by
      simp only [List.mem_cons, List.not_mem_nil, or_false] at hneedle
      rcases hneedle with rfl | rfl | rfl <;> exact ⟨_, _, rfl, by decide⟩
    obtain ⟨c, cs, htext, hblank⟩ := hcons
    rw [htext]
    exact occursIn_fieldLine hblank hindent htrailing field.toField
  have hkept : isKept field = !(occursIn ".CompilerInputUnity".toList field.text ||
      occursIn "'Copy_".toList field.text) := rfl
  rw [keptFields, List.filter_cons, hsame _ (by simp), hsame _ (by simp), ← hkept]
  split
  · rw [List.flatMap_cons, hsame _ (by simp)]
    rfl
  · rfl

/-- What is kept of lines with one field each. -/
theorem keptFields_of_fields {lines : List BodyLine} {fields : List SimpleField}
    (hplain : ∀ line ∈ lines, line.IsPlain)
    (h : lines.map BodyLine.fields = fields.map fun field => [field.toField]) :
    keptFields lines = (fields.filter isKept).map fun field =>
      field.toField.move (mentionsIntermediate field) := by
  induction lines generalizing fields with
  | nil =>
    obtain rfl : fields = [] := by simpa using h.symm
    rfl
  | cons line lines ih =>
    cases fields with
    | nil => cases h
    | cons field fields =>
      rw [List.map_cons, List.map_cons, List.cons.injEq] at h
      have hrest := ih (fun other hother => hplain other (List.mem_cons_of_mem line hother)) h.2
      cases line with
      | blank blanks => cases h.1
      | comment indent note => cases h.1
      | field indent f trailing =>
        obtain rfl : f = field.toField := by simpa [BodyLine.fields] using h.1
        obtain ⟨hindent, -, htrailing⟩ := hplain _ List.mem_cons_self
        rw [keptFields_fieldLine hindent htrailing, hrest, List.filter_cons]
        split <;> rfl

/-- A declaration is located in its own text, and wherever it is located, its single-file target has
certain fields. -/
def RewritesTo (kind : TargetKind) (declared block : List Char) (input : Path)
    (fields : List Field) : Prop :=
  (∀ path, ∃ node,
    Document.locate ⟨path, String.ofList (declarationHeader kind declared ++ block)⟩
      (String.ofList declared) [kind] = .ok node ∧
    node.text.toList = declarationHeader kind declared ++ block) ∧
  ∀ (document : Document) (name : String) (kinds : List TargetKind) (node : TargetNode),
    document.locate name kinds = .ok node →
    node.text.toList = declarationHeader kind declared ++ block →
    separatedFields? (Target.ofNode node input {}).text.toList = some fields

/-- The fields of a target, by the text that the body of the node is rewritten to. -/
theorem rewritesTo_of_targetText {kind : TargetKind} {declared space inner : List Char}
    {cells : List Cell} {lineEnd : Bool} {input : Path} {fields : List Field}
    (hdeclared : ∀ c ∈ declared, Launcher.isTargetChar c = true) (hspace : IsSpace space)
    (hinner : Reads (.code false) inner cells (.code lineEnd))
    (hcells : ∃ original, FieldCells (cells.map blankSeparator) original)
    (htarget : ∀ node : TargetNode, node.body = space ++ '{' :: (inner ++ ['}']) →
      ∃ space' inner' cells' gap, IsSpace space' ∧
        targetText node input {} =
          declarationText .objectList "CompileSingleFile".toList space' inner' ∧
        Reads (.code false) inner' (cells' ++ gap) .start ∧
        FieldCells (cells'.map blankSeparator) fields ∧
        (∀ cell ∈ gap, isGap cell = true) ∧ gap ≠ []) :
    RewritesTo kind declared (space ++ '{' :: (inner ++ ['}'])) input fields := by
  obtain ⟨original, horiginal⟩ := hcells
  have hdepth : depthAfter 1 cells = some 1 := by
    rw [← depthAfter_map_blankSeparator, horiginal.depth]
  have hparen : ('(', Region.code) ∉ cells := by
    intro hmem
    have hsame : blankSeparator ('(', .code) = ('(', .code) := blankSeparator_of_ne (by decide)
    exact horiginal.paren (hsame ▸ List.mem_map_of_mem hmem)
  constructor
  · intro path
    refine ⟨_, locate_declaration kind hdeclared hspace hinner hdepth hparen path, ?_⟩
    rw [String.toList_ofList, declarationText]
  · intro document name kinds node hlocate htext
    have hlength := headerLength_of_locate hlocate htext hdeclared hspace hinner hdepth
    have hbody : node.body = space ++ '{' :: (inner ++ ['}']) := by
      rw [TargetNode.body, hlength, htext, dropBytes_byteLength_append]
    obtain ⟨space', inner', cells', gap, hspace', htargetText, hreads, hfields, hgap, hne⟩ :=
      htarget node hbody
    have hgapCells := (FieldCells.of_gap hgap).map_blankSeparator
    rw [Target.ofNode, String.toList_ofList, htargetText,
      separatedFields?_declaration isTargetChar_targetName hspace' hreads, List.map_append,
      hgapCells, hfields.readFields_brace hgap hne]

/-- A declaration on one line keeps the fields that mention neither the unity field nor a copy step.
-/
theorem rewritesTo_oneLine (kind : TargetKind) {declared : List Char}
    (hdeclared : ∀ c ∈ declared, Launcher.isTargetChar c = true) {fields : List SimpleField}
    (hunity : ∀ field ∈ fields, field.name = "CompilerInputUnity".toList ∨
      occursIn ({} : Settings).unityField.toList field.text = false) (input : Path) :
    RewritesTo kind declared (oneLineText fields) input
      (((fields.filter isKept).map fun field =>
        field.toField.move ((fields.filter isKept).any mentionsIntermediate)) ++
          addedFields input) := by
  have hspace : IsSpace [' '] := by simp [IsSpace, ReadState.isIndent]
  have hitems : ∀ item ∈ row fields, item.field.name = "CompilerInputUnity".toList ∨
      occursIn ({} : Settings).unityField.toList item.field.text = false := by
    intro item hitem
    refine hunity item.field ?_
    rw [← map_field_row fields]
    exact List.mem_map_of_mem hitem
  have hblock : oneLineText fields =
      [' '] ++ '{' :: ((Separator.blank.text ++ rowText (row fields)) ++ ['}']) := by
    simp [oneLineText, Separator.text]
  obtain ⟨cells, hcells, hfields⟩ := reads_rowText .blank (row fields)
  rw [hblock]
  refine rewritesTo_of_targetText hdeclared hspace hcells ⟨_, hfields⟩ fun node hbody => ?_
  obtain ⟨kept, hkept, hkeptFields⟩ := reads_trimEnd_rowText .blank (keptItems (row fields))
  obtain ⟨added, gap, hadded, haddedFields, hgap, hne⟩ :=
    reads_injectedFields (ReadState.isLiteral_code false) IsIndent.nil input
  refine ⟨[' '], _, kept ++ added, gap, hspace, targetText_row ?_ hitems input, ?_, ?_, hgap, hne⟩
  · rw [hbody, ← hblock, oneLineText]
  · rw [List.append_assoc]
    exact hkept.append hadded
  · rw [List.map_append, haddedFields.map_blankSeparator, ← map_field_keptItems]
    exact hkeptFields.append haddedFields

/-- A declaration with its fields on lines of their own keeps the same fields. -/
theorem rewritesTo_lines (kind : TargetKind) {declared : List Char}
    (hdeclared : ∀ c ∈ declared, Launcher.isTargetChar c = true) {fields : List SimpleField}
    {block : PlainBlock}
    (hblock : block.lines.map BodyLine.fields = fields.map fun field => [field.toField])
    (input : Path) :
    RewritesTo kind declared block.text input
      (((fields.filter isKept).map fun field => field.toField.move (mentionsIntermediate field)) ++
        addedFields input) := by
  have hkept := keptFields_of_fields block.plain hblock
  obtain ⟨cells, hcells, hfields⟩ := exists_fieldCells_block block
  have htext : block.text = (block.afterHeader ++ '\n' :: block.beforeOpen) ++ '{' ::
      ((block.afterOpen ++ ((block.lines.flatMap fun line => '\n' :: line.text) ++
        '\n' :: block.beforeClose)) ++ ['}']) := by
    simp [PlainBlock.text]
  have hsame := hfields.map_blankSeparator
  rw [htext]
  refine rewritesTo_of_targetText hdeclared (isSpace_block block) hcells
    ⟨_, hsame.symm ▸ hfields⟩ fun node hbody => ?_
  obtain ⟨blanks, indent, lines, hblanks, hindent, hplain, hlines, htarget⟩ :=
    exists_targetText_eq (hbody.trans htext.symm) input
  obtain ⟨target, gap, hreads, htargetFields, hgap, hne⟩ :=
    reads_targetBlock hblanks hplain hindent input
  refine ⟨_, _, target, gap, isSpace_block block, htarget, hreads, ?_, hgap, hne⟩
  rw [htargetFields.map_blankSeparator, ← hkept, ← hlines]
  exact htargetFields

/-- On one line and on lines of their own the same fields are kept, in the same order. On one line
the segments of all of them are extended when one of them mentions an intermediate directory; on
lines of their own, only those of the fields that do. -/
theorem rewritesTo_layouts (kind : TargetKind) (declared : List Char) (fields : List SimpleField)
    (block : PlainBlock) (input : Path)
    (hdeclared : ∀ c ∈ declared, Launcher.isTargetChar c = true)
    (hunity : ∀ field ∈ fields, field.name = "CompilerInputUnity".toList ∨
      occursIn ({} : Settings).unityField.toList field.text = false)
    (hblock : block.lines.map BodyLine.fields = fields.map fun field => [field.toField]) :
    let kept := fields.filter isKept
    RewritesTo kind declared (oneLineText fields) input
        ((kept.map fun field => field.toField.move (kept.any mentionsIntermediate)) ++
          addedFields input) ∧
      RewritesTo kind declared block.text input
        ((kept.map fun field => field.toField.move (mentionsIntermediate field)) ++
          addedFields input) :=
  ⟨rewritesTo_oneLine kind hdeclared hunity input, rewritesTo_lines kind hdeclared hblock input⟩

/-- A field to keep, the unity field, a list that names a copy step, and a field to keep. -/
def sampleFields : List SimpleField := [
  ⟨⟨"IntermediatePath".toList, .literal "\\int\\x".toList⟩, by decide, by decide, by decide⟩,
  ⟨⟨"CompilerInputUnity".toList, .literal "U".toList⟩, by decide, by decide, by decide⟩,
  ⟨⟨"PreBuild".toList, .list ["Copy_a".toList, "b".toList]⟩, by decide, by decide, by decide⟩,
  ⟨⟨"Options".toList, .literal "o\\int\\y".toList⟩, by decide, by decide, by decide⟩]

example : oneLineText sampleFields = (" \x7b .IntermediatePath = '\\int\\x'; " ++
    ".CompilerInputUnity = 'U'; .PreBuild = \x7b 'Copy_a', 'b' \x7d; " ++
    ".Options = 'o\\int\\y' \x7d").toList := by
  decide +kernel

/-- The sample fields on lines of their own. -/
def sampleLines : PlainBlock where
  afterHeader := [' ']
  beforeOpen := []
  afterOpen := []
  lines := sampleFields.map fun field => .field "    ".toList field.toField []
  beforeClose := []
  indents := by decide
  plain := by decide +kernel

/-- The first and the last field are kept in both layouts. The last mentions no intermediate
directory, so its segment is extended only on the line that it shares with the first. -/
theorem rewritesTo_layouts_sample :
    RewritesTo .library "Foo".toList (oneLineText sampleFields) ⟨"a.cpp"⟩
      (⟨"IntermediatePath".toList, .literal "\\int\\CompileSingleFile\\x".toList⟩ ::
        ⟨"Options".toList, .literal "o\\int\\CompileSingleFile\\y".toList⟩ ::
        addedFields ⟨"a.cpp"⟩) ∧
    RewritesTo .library "Foo".toList sampleLines.text ⟨"a.cpp"⟩
      (⟨"IntermediatePath".toList, .literal "\\int\\CompileSingleFile\\x".toList⟩ ::
        ⟨"Options".toList, .literal "o\\int\\y".toList⟩ :: addedFields ⟨"a.cpp"⟩) := by
  have hsample := rewritesTo_layouts .library "Foo".toList sampleFields sampleLines ⟨"a.cpp"⟩
    (by decide) (by decide +kernel) (by decide +kernel)
  have hone : (sampleFields.filter isKept).map (fun field =>
        field.toField.move ((sampleFields.filter isKept).any mentionsIntermediate)) =
      [⟨"IntermediatePath".toList, .literal "\\int\\CompileSingleFile\\x".toList⟩,
        ⟨"Options".toList, .literal "o\\int\\CompileSingleFile\\y".toList⟩] := by
    decide +kernel
  have hlines : (sampleFields.filter isKept).map (fun field =>
        field.toField.move (mentionsIntermediate field)) =
      [⟨"IntermediatePath".toList, .literal "\\int\\CompileSingleFile\\x".toList⟩,
        ⟨"Options".toList, .literal "o\\int\\y".toList⟩] := by
    decide +kernel
  simp only [hone, hlines] at hsample
  exact hsample

end SoloBuild.SingleFile
