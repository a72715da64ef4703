import SoloBuild.Proofs.DeclarationReading
import SoloBuild.Proofs.RewriteLines

/-!
# The fields of a single-file target

A plain declaration is rewritten to a declaration again. Its fields are those of the lines that are
kept, with their literals relocated, and then the fields that compile the input file alone.

## Key results

- `reads_injectedFields`: the added fields, behind whatever the lines before them end with
- `reads_targetBlock`: a block that ends with the added fields reads as its lines and them
- `exists_targetText_eq`: the text of the target is a declaration
- `fields?_ofNode`: the target is located in its own text, and its fields are the intended ones
-/

namespace SoloBuild.Description

open Text

/-- The text is cut before its last mark. -/
theorem splitAtLast_append {mark : Char} (xs : List Char) {ys : List Char} (h : mark ∉ ys) :
    splitAtLast mark (xs ++ mark :: ys) = some (xs, mark :: ys) := by
  have hnone : splitAtLast mark ys = none := by
    cases hys : splitAtLast mark ys with
    | none => rfl
    | some pieces =>
      obtain ⟨front, back⟩ := pieces
      obtain ⟨rfl, rest, rfl, _⟩ := splitAtLast_eq_some hys
      exact absurd (List.mem_append_right front List.mem_cons_self) h
  induction xs with
  | nil => simp [splitAtLast, hnone]
  | cons x xs ih => simp [splitAtLast, ih]

/-- What is left of the blanks and lines of a block without the blanks at their end. -/
theorem exists_trimEnd_block {blanks last : List Char} {lines : List BodyLine}
    (hblanks : IsIndent blanks) (hlast : IsIndent last) (h : ∀ line ∈ lines, line.IsPlain) :
    ∃ (blanks' : List Char) (lines' : List BodyLine), IsIndent blanks' ∧
      (∀ line ∈ lines', line.IsPlain) ∧
      lines'.flatMap BodyLine.fields = lines.flatMap BodyLine.fields ∧
      trimEnd (blanks ++ ((lines.flatMap fun line => '\n' :: line.text) ++ '\n' :: last)) =
        blanks' ++ lines'.flatMap fun line => '\n' :: line.text := by
  obtain ⟨lines', hplain, hfields, htrim⟩ := exists_trimEnd_lines h
  have hrest : trimEnd ((lines.flatMap fun line => '\n' :: line.text) ++ '\n' :: last) =
      lines'.flatMap fun line => '\n' :: line.text := by
    rw [trimEnd_append_blanks, htrim]
    intro c hc
    rcases List.mem_cons.1 hc with rfl | hc
    · decide
    · exact isBlank_of_isIndent (hlast c hc)
  rw [trimEnd_append, hrest]
  -- When nothing is left of the lines, the blanks after the opening brace are cut as well.
  split
  · rename_i hnil
    rw [hblanks.trimEnd_eq]
    exact ⟨[], lines', by simp [IsIndent], hplain, hfields, by rw [hnil]; rfl⟩
  · exact ⟨blanks, lines', hblanks, hplain, hfields, rfl⟩

end SoloBuild.Description

namespace SoloBuild.SingleFile

open Text Description

/-! ## The added fields -/

/-- The fields that make a target compile `input` alone and locally. -/
def addedFields (input : Path) : List Field :=
  [⟨"CompilerInputFiles".toList, .literal input.text.toList⟩,
    ⟨"AllowCaching".toList, .word "false".toList⟩,
    ⟨"AllowDistribution".toList, .word "false".toList⟩]

theorem lineBreak_cases (body : List Char) :
    lineBreak body = ['\n'] ∨ lineBreak body = ['\r', '\n'] := by
  rw [lineBreak]
  split
  · exact .inr rfl
  · exact .inl rfl

/-- The line break of a body is a newline, with what may stand at the end of a line before it. -/
theorem exists_lineBreak_eq (body : List Char) :
    ∃ indent, IsIndent indent ∧ lineBreak body = indent ++ ['\n'] := by
  rcases lineBreak_cases body with h | h
  · exact ⟨[], by decide, h⟩
  · exact ⟨['\r'], by decide, h⟩

/-- The added fields line by line. -/
theorem injectedFields_eq (indent : List Char) (input : Path) :
    injectedFields (indent ++ ['\n']) input =
      indent ++ (('\n' :: indent) ++
        (('\n' :: ("    ".toList ++ (fieldText "CompilerInputFiles".toList
          (quote input.text.toList) ++ indent))) ++
        (('\n' :: ("    ".toList ++ (fieldText "AllowCaching".toList "false".toList ++ indent))) ++
        (('\n' :: ("    ".toList ++ (fieldText "AllowDistribution".toList "false".toList ++
          indent))) ++ ['\n'])))) := by
  simp [injectedFields, fieldText]

/-- The added fields, behind whatever the lines before them end with. -/
theorem reads_injectedFields {state : ReadState} (hstate : state.isLiteral = false)
    {indent : List Char} (hindent : IsIndent indent) (input : Path) :
    ∃ cells gap, Reads state (injectedFields (indent ++ ['\n']) input) (cells ++ gap) .start ∧
      FieldCells cells (addedFields input) ∧ (∀ cell ∈ gap, isGap cell = true) ∧ gap ≠ [] := by
  have hspaces : IsIndent "    ".toList := by simp [IsIndent, ReadState.isIndent]
  have hfalse := readsValue_word "false".toList (by decide) (by decide)
  obtain ⟨first, _, hfirst, hs, hfirstGap⟩ := reads_blanks hstate hindent
  obtain ⟨blank, hblank, hblankGap, _⟩ := reads_newline hs hindent
  obtain ⟨files, _, hfiles, hs, hfilesCells⟩ := reads_fieldLine ReadState.isLiteral_start hspaces
    "CompilerInputFiles".toList (by decide) (readsValue_quote input.text.toList) hindent
  obtain ⟨caching, _, hcaching, hs, hcachingCells⟩ := reads_fieldLine hs hspaces
    "AllowCaching".toList (by decide) hfalse hindent
  obtain ⟨distribution, _, hdistribution, hs, hdistributionCells⟩ := reads_fieldLine hs hspaces
    "AllowDistribution".toList (by decide) hfalse hindent
  obtain ⟨gap, hgap, hgapCells, hne⟩ := reads_newline hs IsIndent.nil
  refine ⟨first ++ (blank ++ (files ++ (caching ++ distribution))), gap, ?_, ?_, hgapCells, hne⟩
  · have hreads := hfirst.append (hblank.append (hfiles.append (hcaching.append
      (hdistribution.append hgap))))
    rw [injectedFields_eq]
    simpa only [List.append_assoc] using hreads
  · exact (FieldCells.of_gap hfirstGap).append ((FieldCells.of_gap hblankGap).append
      (hfilesCells.append (hcachingCells.append hdistributionCells)))

/-- Fields are added before the last brace of a body, in place of the blanks before it. -/
theorem insertFields_append (fields front : List Char) {back : List Char} (h : '}' ∉ back) :
    insertFields fields (front ++ '}' :: back) = trimEnd front ++ fields ++ '}' :: back := by
  rw [insertFields, splitAtLast_append front h]

/-! ## The fields of the target -/

/-- The name of a target is one that a build command line can ask for. -/
theorem isTargetChar_targetName : ∀ c ∈ "CompileSingleFile".toList,
    Launcher.isTargetChar c = true := by
  decide +kernel

/-- The header of a target is written as the headers of declarations are. -/
theorem headerText_eq :
    headerText {} = declarationHeader .objectList "CompileSingleFile".toList := by
  decide

/-- The fields that a target keeps: those of the lines that mention neither the unity field nor a
    copy step. Where a line mentions an intermediate directory, the segments of intermediate output
    in its literals are extended; in every line the placeholders of the directory are removed. -/
def keptFields (lines : List BodyLine) : List Field :=
  (lines.filter fun line => !(occursIn ".CompilerInputUnity".toList line.text ||
      occursIn "'Copy_".toList line.text)).flatMap fun line =>
    line.fields.map (Field.move (occursIn ".Intermediate".toList line.text))

theorem flatMap_fields_keptLines (block : PlainBlock) :
    block.keptLines.flatMap BodyLine.fields = keptFields block.lines := by
  have hfields : ∀ (moved : Bool) (line : BodyLine),
      (line.move moved).fields = line.fields.map (Field.move moved) := by
    intro moved line
    cases line <;> rfl
  rw [PlainBlock.keptLines, List.flatMap_map, keptFields]
  simp only [hfields]
  rfl

/-- The spaces between the header and the block of a plain declaration. -/
theorem isSpace_block (block : PlainBlock) :
    IsSpace (block.afterHeader ++ '\n' :: block.beforeOpen) := by
  obtain ⟨hheader, hbefore, _, _⟩ := block.indents
  intro c hc
  rw [List.mem_append, List.mem_cons] at hc
  rcases hc with hc | rfl | hc
  · exact .inl (hheader c hc)
  · exact .inr rfl
  · exact .inl (hbefore c hc)

/-- The inside of the block of a plain declaration reads as its fields. -/
theorem exists_fieldCells_block (block : PlainBlock) :
    ∃ cells, Reads (.code false) (block.afterOpen ++
        ((block.lines.flatMap fun line => '\n' :: line.text) ++ '\n' :: block.beforeClose))
      cells .start ∧ FieldCells cells (block.lines.flatMap BodyLine.fields) := by
  obtain ⟨_, _, hafter, hclose⟩ := block.indents
  obtain ⟨first, _, hfirst, hs, hfirstGap⟩ := reads_blanks (ReadState.isLiteral_code false) hafter
  obtain ⟨cells, _, hlines, hs, hcells⟩ := reads_lines block.plain hs
  obtain ⟨gap, hgap, hgapCells, _⟩ := reads_newline hs hclose
  refine ⟨_, hfirst.append (hlines.append hgap), ?_⟩
  simpa using (FieldCells.of_gap hfirstGap).append (hcells.append (FieldCells.of_gap hgapCells))

/-- The inside of the block of a plain declaration. -/
theorem reads_block (block : PlainBlock) :
    ∃ cells, Reads (.code false) (block.afterOpen ++
        ((block.lines.flatMap fun line => '\n' :: line.text) ++ '\n' :: block.beforeClose))
      cells .start ∧ depthAfter 1 cells = some 1 := by
  obtain ⟨cells, hreads, hfields⟩ := exists_fieldCells_block block
  exact ⟨cells, hreads, hfields.depth⟩

/-- The text of the target of a plain declaration is a declaration again. -/
theorem exists_targetText_eq {node : TargetNode} {block : PlainBlock}
    (hbody : node.body = block.text) (input : Path) :
    ∃ (blanks indent : List Char) (lines : List BodyLine), IsIndent blanks ∧ IsIndent indent ∧
      (∀ line ∈ lines, line.IsPlain) ∧ lines.flatMap BodyLine.fields = keptFields block.lines ∧
      targetText node input {} = declarationText .objectList "CompileSingleFile".toList
        (block.afterHeader ++ '\n' :: block.beforeOpen)
        (blanks ++ ((lines.flatMap fun line => '\n' :: line.text) ++
          injectedFields (indent ++ ['\n']) input)) := by
  obtain ⟨indent, hindent, hbreak⟩ := exists_lineBreak_eq node.body
  obtain ⟨_, _, hafter, hclose⟩ := block.indents
  obtain ⟨blanks, lines, hblanks, hplain, hfields, htrim⟩ := exists_trimEnd_block hafter hclose
    fun _ => block.isPlain_of_mem_keptLines
  refine ⟨blanks, indent, lines, hblanks, hindent, hplain,
    hfields.trans (flatMap_fields_keptLines block), ?_⟩
  have hkept : joinLines (keptLines {} node.bodyLines) =
      ((block.afterHeader ++ '\n' :: block.beforeOpen) ++ '{' :: (block.afterOpen ++
        ((block.keptLines.flatMap fun line => '\n' :: line.text) ++ '\n' :: block.beforeClose))) ++
        '}' :: [] := by
    rw [TargetNode.bodyLines, hbody, PlainBlock.keptLines_eq, List.cons_append, joinLines_cons]
    simp [List.flatMap_map]
  rw [targetText, hbreak, hkept, insertFields_append _ _ List.not_mem_nil,
    trimEnd_append_cons (by decide), htrim, headerText_eq, declarationText]
  simp only [List.append_assoc, List.cons_append]

/-- The block of a target: the blanks after its brace, the lines that are kept, the added fields. -/
theorem reads_targetBlock {blanks indent : List Char} {lines : List BodyLine}
    (hblanks : IsIndent blanks) (hplain : ∀ line ∈ lines, line.IsPlain) (hindent : IsIndent indent)
    (input : Path) :
    ∃ cells gap, Reads (.code false) (blanks ++ ((lines.flatMap fun line => '\n' :: line.text) ++
        injectedFields (indent ++ ['\n']) input)) (cells ++ gap) .start ∧
      FieldCells cells (lines.flatMap BodyLine.fields ++ addedFields input) ∧
      (∀ cell ∈ gap, isGap cell = true) ∧ gap ≠ [] := by
  obtain ⟨first, _, hfirst, hs, hfirstGap⟩ := reads_blanks (ReadState.isLiteral_code false) hblanks
  obtain ⟨kept, _, hlines, hs, hkept⟩ := reads_lines hplain hs
  obtain ⟨added, gap, hadded, haddedFields, hgap, hne⟩ := reads_injectedFields hs hindent input
  refine ⟨first ++ (kept ++ added), gap, ?_, ?_, hgap, hne⟩
  · have hreads := hfirst.append (hlines.append hadded)
    simpa only [List.append_assoc] using hreads
  · exact (FieldCells.of_gap hfirstGap).append (hkept.append haddedFields)

/-- A plain declaration is rewritten to a declaration that is located in its own text, from its
    first to its last character, and whose fields are those that are kept, then those that are
    added. -/
theorem fields?_ofNode (document : Document) (name : String) (kinds : List TargetKind)
    (node : TargetNode) (kind : TargetKind) (declared : List Char) (block : PlainBlock)
    (hlocate : document.locate name kinds = .ok node)
    (hdeclared : ∀ c ∈ declared, Launcher.isTargetChar c = true)
    (htext : node.text.toList = declarationHeader kind declared ++ block.text)
    (input path : Path) :
    let target := Target.ofNode node input {}
    ∃ found, Document.locate ⟨path, target.text⟩ "CompileSingleFile" [.objectList] = .ok found ∧
      found.start = 0 ∧ found.stop = byteLength target.text.toList ∧ found.text = target.text ∧
      fields? target.text.toList = some (keptFields block.lines ++ addedFields input) := by
  obtain ⟨originalCells, horiginal, horiginalDepth⟩ := reads_block block
  have hdeclaration : node.text.toList = declarationText kind declared
      (block.afterHeader ++ '\n' :: block.beforeOpen) (block.afterOpen ++
        ((block.lines.flatMap fun line => '\n' :: line.text) ++ '\n' :: block.beforeClose)) := by
    rw [htext]
    simp [declarationText, PlainBlock.text]
  -- The body of the node is what follows its header.
  have hlength := headerLength_of_locate hlocate hdeclaration hdeclared (isSpace_block block)
    horiginal horiginalDepth
  have hbody : node.body = block.text := by
    rw [TargetNode.body, hlength, htext, dropBytes_byteLength_append]
  obtain ⟨blanks, indent, lines, hblanks, hindent, hplain, hfields, htarget⟩ :=
    exists_targetText_eq hbody input
  obtain ⟨cells, gap, hreads, hcells, hgap, hne⟩ := reads_targetBlock hblanks hplain hindent input
  have hall := hcells.append (FieldCells.of_gap hgap)
  have hfound := locate_declaration .objectList isTargetChar_targetName (isSpace_block block) hreads
    hall.depth hall.paren path
  rw [String.ofList_toList, ← htarget] at hfound
  refine ⟨_, hfound, rfl, ?_, rfl, ?_⟩
  · simp only [Target.ofNode, String.toList_ofList]
  · have hclose : readFields (gap ++ [('}', .code)]) = some [] := by
      rw [readFields, skipGap_append hgap]
      rfl
    have hstarts : StartsGap (gap ++ [('}', .code)]) := by
      obtain ⟨cell, gap, rfl⟩ := List.exists_cons_of_ne_nil hne
      exact StartsGap.of_cons (hgap cell List.mem_cons_self)
    rw [Target.ofNode, String.toList_ofList, htarget,
      fields?_declaration isTargetChar_targetName (isSpace_block block) hreads, List.append_assoc,
      hcells.read _ hstarts, hclose, hfields]
    simp

/-- A block with a field to keep, a comment, and a field to drop. -/
def sampleBlock : PlainBlock where
  afterHeader := []
  beforeOpen := []
  afterOpen := []
  lines := [
    .field "    ".toList ⟨"IntermediatePath".toList, .literal "\\int\\x".toList⟩ [],
    .comment [] "; x".toList,
    .field [] ⟨"CompilerInputUnity".toList, .literal "U".toList⟩ []]
  beforeClose := []
  indents := by decide
  plain := by decide +kernel

/-- The node of a library with the sample block. -/
def sampleNode : TargetNode where
  name := "Foo"
  kind := .library
  start := 0
  stop := 83
  headerLength := 16
  text := "Library( 'Foo' )\n\x7b\n    .IntermediatePath = '\\int\\x'\n" ++
    "; x\n.CompilerInputUnity = 'U'\n\x7d"

/-- The field that is dropped is gone, and the one that is kept has its segment extended. -/
theorem fields?_ofNode_sample :
    fields? (Target.ofNode sampleNode ⟨"a.cpp"⟩ {}).text.toList =
      some (⟨"IntermediatePath".toList, .literal "\\int\\CompileSingleFile\\x".toList⟩ ::
        addedFields ⟨"a.cpp"⟩) := by
  obtain ⟨_, _, _, _, _, hfields⟩ := fields?_ofNode ⟨⟨"b.bff"⟩, sampleNode.text⟩ "Foo" [.library]
    sampleNode .library "Foo".toList sampleBlock (by decide +kernel) (by decide +kernel)
    (by decide +kernel) ⟨"a.cpp"⟩ ⟨"c.bff"⟩
  rw [hfields]
  decide +kernel

end SoloBuild.SingleFile
