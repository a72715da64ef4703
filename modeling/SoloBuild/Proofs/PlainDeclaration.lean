import SoloBuild.Proofs.FieldPieces
import SoloBuild.Text.Lines

/-!
# Declarations laid out line by line

A plain declaration has its braces on lines of their own and, between them, lines that are blank or
hold one field or one comment. Whatever state a line break meets, as long as it is no literal, the
line after it reads as what it holds, and so do all lines of the block.

## Key results

- `BodyLine.reads`, `reads_lines`: a line, and the lines of a block
- `splitLines_flatMap`, `joinLines_cons`: the lines of a text that is put together from lines
- `exists_trimEnd_lines`: cutting the blanks at the end keeps the lines plain and their fields
-/

namespace SoloBuild.Description

open Text

/-! ## Fields as they are written -/

/-- The text of a value, when its literals stand for themselves. -/
def Value.text : Value → List Char
  | .literal content => literalText content
  | .list contents => ['{', ' '] ++ (itemsText contents ++ [' ', '}'])
  | .reference name => '.' :: name
  | .word letters => letters

/-- The literals of the value stand for themselves and its names are words; all on one line. -/
def Value.IsPlain : Value → Prop
  | .literal content => IsPlainContent content ∧ '\n' ∉ content
  | .list contents => ∀ content ∈ contents, IsPlainContent content ∧ '\n' ∉ content
  | .reference name => ∀ c ∈ name, isWord c = true
  | .word letters => (∀ c ∈ letters, isWord c = true) ∧ letters ≠ []

instance : (value : Value) → Decidable value.IsPlain
  | .literal _ => inferInstanceAs (Decidable (_ ∧ _))
  | .list contents => inferInstanceAs (Decidable (∀ content ∈ contents, _))
  | .reference name => inferInstanceAs (Decidable (∀ c ∈ name, _))
  | .word _ => inferInstanceAs (Decidable (_ ∧ _))

/-- The name of the field is a word, and its value is plain. -/
def Field.IsPlain (field : Field) : Prop :=
  (∀ c ∈ field.name, isWord c = true) ∧ field.value.IsPlain

instance (field : Field) : Decidable field.IsPlain :=
  inferInstanceAs (Decidable (_ ∧ _))

/-- The text of a field, when the literals of its value stand for themselves. -/
def Field.text (field : Field) : List Char :=
  fieldText field.name field.value.text

theorem Value.readsValue {value : Value} (h : value.IsPlain) :
    ∃ cells, ReadsValue value.text value cells := by
  cases value with
  | literal content => exact ⟨_, readsValue_plainLiteral h.1⟩
  | list contents => exact ⟨_, readsValue_list fun content hcontent => (h content hcontent).1⟩
  | reference name => exact ⟨_, readsValue_reference h⟩
  | word letters => exact ⟨_, readsValue_word _ h.1 h.2⟩

theorem Value.newline_not_mem_text {value : Value} (h : value.IsPlain) : '\n' ∉ value.text := by
  have hliteral : ∀ content : List Char, '\n' ∉ content → '\n' ∉ literalText content := by
    intro content hcontent
    simp [literalText, hcontent]
  cases value with
  | literal content => exact hliteral content h.2
  | list contents =>
    have hitems : '\n' ∉ itemsText contents := by
      induction contents with
      | nil => exact List.not_mem_nil
      | cons content contents ih =>
        have hfirst := hliteral content (h content List.mem_cons_self).2
        have hrest := ih fun other hother => h other (List.mem_cons_of_mem content hother)
        cases contents with
        | nil => exact hfirst
        | cons next contents =>
          simp only [itemsText, List.mem_append, not_or]
          exact ⟨⟨hfirst, by decide⟩, hrest⟩
    simp [Value.text, hitems]
  | reference name => simp [Value.text, not_mem_of_isWord h (c := '\n') (by decide)]
  | word letters => exact not_mem_of_isWord h.1 (by decide)

theorem Field.newline_not_mem_text {field : Field} (h : field.IsPlain) : '\n' ∉ field.text := by
  simp [Field.text, fieldText, not_mem_of_isWord h.1 (c := '\n') (by decide),
    Value.newline_not_mem_text h.2]

/-! ## Lines -/

/-- What a line of a block holds. -/
inductive BodyLine where
  /-- Nothing but blanks. -/
  | blank (blanks : List Char)
  /-- A field between blanks. -/
  | field (indent : List Char) (field : Field) (trailing : List Char)
  /-- A comment after blanks; it runs to the end of the line. -/
  | comment (indent text : List Char)

/-- The text consists of the blanks that stand around a line. -/
def IsIndent (text : List Char) : Prop :=
  ∀ c ∈ text, ReadState.isIndent c = true

instance (text : List Char) : Decidable (IsIndent text) :=
  inferInstanceAs (Decidable (∀ c ∈ text, _))

theorem IsIndent.nil : IsIndent [] := by simp [IsIndent]

/-- A comment on one line. -/
def IsComment (text : List Char) : Prop :=
  (['/', '/'] <+: text ∨ [';'] <+: text) ∧ '\n' ∉ text

instance (text : List Char) : Decidable (IsComment text) :=
  inferInstanceAs (Decidable (_ ∧ _))

namespace BodyLine

/-- The text of a line. -/
def text : BodyLine → List Char
  | .blank blanks => blanks
  | .field indent f trailing => indent ++ (f.text ++ trailing)
  | .comment indent note => indent ++ note

/-- The fields of a line. -/
def fields : BodyLine → List Field
  | .field _ f _ => [f]
  | _ => []

/-- The line is what it is meant to be. -/
def IsPlain : BodyLine → Prop
  | .blank blanks => IsIndent blanks
  | .field indent f trailing => IsIndent indent ∧ f.IsPlain ∧ IsIndent trailing
  | .comment indent note => IsIndent indent ∧ IsComment note

instance : (line : BodyLine) → Decidable line.IsPlain
  | .blank blanks => inferInstanceAs (Decidable (IsIndent blanks))
  | .field .. => inferInstanceAs (Decidable (_ ∧ _))
  | .comment .. => inferInstanceAs (Decidable (_ ∧ _))

end BodyLine

theorem IsIndent.isCodeChar {text : List Char} (h : IsIndent text) :
    ∀ c ∈ text, Description.isCodeChar c = true :=
  fun c hc => isCodeChar_of_isBlank (isBlank_of_isIndent (h c hc))

/-- In code the blanks of an indent separate. -/
theorem IsIndent.isGap {text : List Char} (h : IsIndent text) :
    ∀ cell ∈ cellsIn .code text, Description.isGap cell = true :=
  forall_mem_cellsIn.2 fun c hc => by simp [Description.isGap, isBlank_of_isIndent (h c hc)]

theorem IsIndent.newline_not_mem {text : List Char} (h : IsIndent text) : '\n' ∉ text :=
  fun hmem => absurd (h '\n' hmem) (by decide)

theorem BodyLine.newline_not_mem_text {line : BodyLine} (h : line.IsPlain) : '\n' ∉ line.text := by
  cases line with
  | blank blanks =>
    have hblanks : IsIndent blanks := h
    exact hblanks.newline_not_mem
  | field indent field trailing =>
    obtain ⟨hindent, hfield, htrailing⟩ := h
    simp [text, hindent.newline_not_mem, Field.newline_not_mem_text hfield,
      htrailing.newline_not_mem]
  | comment indent text =>
    obtain ⟨hindent, _, hnewline⟩ := h
    simp [BodyLine.text, hindent.newline_not_mem, hnewline]

/-! ## Reading lines -/

/-- Blanks separate, in code as in a comment. -/
theorem reads_blanks {state : ReadState} (hstate : state.isLiteral = false) {text : List Char}
    (h : IsIndent text) :
    ∃ cells final, Reads state text cells final ∧ final.isLiteral = false ∧
      ∀ cell ∈ cells, isGap cell = true := by
  cases state with
  | code lineStart =>
    exact ⟨_, _, reads_code h.isCodeChar lineStart, rfl, h.isGap⟩
  | literal quote escaped => cases hstate
  | comment =>
    exact ⟨_, _, Reads.of_readsAs (readsAs_comment h.newline_not_mem), rfl,
      forall_mem_cellsIn.2 fun _ _ => rfl⟩

/-- Blanks at the start of a line stay at the start of the line. -/
theorem lineStartAfter_of_isIndent {text : List Char} (h : IsIndent text) :
    lineStartAfter true text = true := by
  induction text with
  | nil => rfl
  | cons c cs ih =>
    have hc : ReadState.isIndent c = true := h c List.mem_cons_self
    rw [lineStartAfter, List.foldl_cons, hc, Bool.and_self, Bool.or_true]
    exact ih fun d hd => h d (List.mem_cons_of_mem c hd)

/-- A line break and the blanks after it lead to the start of a line. -/
theorem reads_newline {state : ReadState} (hstate : state.isLiteral = false) {indent : List Char}
    (h : IsIndent indent) :
    ∃ cells, Reads state ('\n' :: indent) cells .start ∧ (∀ cell ∈ cells, isGap cell = true) ∧
      cells ≠ [] := by
  have hbreak : ∃ region, Reads state ['\n'] [('\n', region)] .start ∧
      isGap ('\n', region) = true := by
    cases state with
    | code lineStart => exact ⟨.code, reads_code (by decide) lineStart, by decide⟩
    | literal quote escaped => cases hstate
    | comment => exact ⟨.comment, ⟨fun _ => rfl, fun _ => rfl⟩, rfl⟩
  obtain ⟨region, hread, hgap⟩ := hbreak
  have hindent := reads_code h.isCodeChar true
  rw [lineStartAfter_of_isIndent h] at hindent
  exact ⟨_, hread.append hindent, List.forall_mem_cons.2 ⟨hgap, h.isGap⟩, by simp⟩

/-- A comment at the start of a line. -/
theorem reads_comment {text : List Char} (h : IsComment text) :
    Reads .start text (cellsIn .comment text) .comment := by
  -- Slashes open a comment anywhere, a semicolon only where the line starts.
  obtain ⟨⟨rest, rfl⟩ | ⟨rest, rfl⟩, hnewline⟩ := h
  · have hrest : '\n' ∉ rest := fun hmem => hnewline (List.mem_append_right _ hmem)
    have hopen : ReadState.start.step (some '/') '/' = (.comment, .comment) := by
      simp [ReadState.step, ReadState.start]
    have hslash : ∀ next, ReadState.comment.step next '/' = (.comment, .comment) := fun _ => rfl
    exact Reads.of_readsAs fun next =>
      ReadsAs.cons hopen (ReadsAs.cons (hslash _) (readsAs_comment hrest next))
  · have hrest : '\n' ∉ rest := fun hmem => hnewline (List.mem_append_right _ hmem)
    refine Reads.of_readsAs fun next => ReadsAs.cons ?_ (readsAs_comment hrest next)
    simp [ReadState.step, ReadState.start]

/-- A field behind a line break, and the blanks after it. -/
theorem reads_fieldLine {state : ReadState} (hstate : state.isLiteral = false)
    {indent text trailing : List Char} {value : Value} {cells : List Cell}
    (hindent : IsIndent indent) (name : List Char) (hname : ∀ c ∈ name, isWord c = true)
    (h : ReadsValue text value cells) (htrailing : IsIndent trailing) :
    ∃ cells final,
      Reads state ('\n' :: (indent ++ (fieldText name text ++ trailing))) cells final ∧
      final.isLiteral = false ∧ FieldCells cells [⟨name, value⟩] := by
  obtain ⟨gap, hgap, hgapCells, hne⟩ := reads_newline hstate hindent
  obtain ⟨last, final, hlast, hfinal, hlastCells⟩ :=
    reads_blanks (ReadState.isLiteral_code false) htrailing
  refine ⟨_, final, hgap.append ((reads_field hname h true).append hlast), hfinal, ?_⟩
  rw [← List.append_assoc]
  exact (FieldCells.of_field hgapCells hne hname h).append (FieldCells.of_gap hlastCells)

/-- A line behind a line break reads as what it holds. -/
theorem BodyLine.reads {line : BodyLine} (h : line.IsPlain) {state : ReadState}
    (hstate : state.isLiteral = false) :
    ∃ cells final, Reads state ('\n' :: line.text) cells final ∧ final.isLiteral = false ∧
      FieldCells cells line.fields := by
  cases line with
  | blank blanks =>
    have hblanks : IsIndent blanks := h
    obtain ⟨gap, hgap, hgapCells, _⟩ := reads_newline hstate hblanks
    exact ⟨gap, .start, hgap, rfl, FieldCells.of_gap hgapCells⟩
  | field indent field trailing =>
    obtain ⟨hindent, hfield, htrailing⟩ := h
    obtain ⟨cells, hvalue⟩ := Value.readsValue hfield.2
    exact reads_fieldLine hstate hindent _ hfield.1 hvalue htrailing
  | comment indent text =>
    obtain ⟨gap, hgap, hgapCells, _⟩ := reads_newline hstate h.1
    exact ⟨_, .comment, hgap.append (reads_comment h.2), rfl, FieldCells.of_gap
      (List.forall_mem_append.2 ⟨hgapCells, forall_mem_cellsIn.2 fun _ _ => rfl⟩)⟩

/-- The lines of a block, each behind a line break. -/
theorem reads_lines {lines : List BodyLine} (h : ∀ line ∈ lines, line.IsPlain) {state : ReadState}
    (hstate : state.isLiteral = false) :
    ∃ cells final, Reads state (lines.flatMap fun line => '\n' :: line.text) cells final ∧
      final.isLiteral = false ∧ FieldCells cells (lines.flatMap BodyLine.fields) := by
  induction lines generalizing state with
  | nil => exact ⟨[], state, Reads.nil, hstate, FieldCells.nil⟩
  | cons line lines ih =>
    obtain ⟨cells, middle, hline, hmiddle, hfields⟩ :=
      BodyLine.reads (h line List.mem_cons_self) hstate
    obtain ⟨more, final, hlines, hfinal, hmore⟩ :=
      ih (fun other hother => h other (List.mem_cons_of_mem line hother)) hmiddle
    exact ⟨_, final, hline.append hlines, hfinal, hfields.append hmore⟩

/-! ## The lines of a text -/

theorem splitLines_append_newline {line : List Char} (h : '\n' ∉ line) (text : List Char) :
    splitLines (line ++ '\n' :: text) = line :: splitLines text := by
  rw [splitLines, splitWhere_append_cons rfl, splitWhere_of_not_mem '\n' line h]
  rfl

theorem splitLines_of_not_mem {line : List Char} (h : '\n' ∉ line) : splitLines line = [line] :=
  splitWhere_of_not_mem '\n' line h

/-- A text that is put together from lines has these lines. -/
theorem splitLines_flatMap {line : List Char} {lines : List (List Char)}
    (h : ∀ other ∈ line :: lines, '\n' ∉ other) :
    splitLines (line ++ lines.flatMap ('\n' :: ·)) = line :: lines := by
  induction lines generalizing line with
  | nil =>
    rw [List.flatMap_nil, List.append_nil]
    exact splitLines_of_not_mem (h line List.mem_cons_self)
  | cons next lines ih =>
    rw [List.flatMap_cons, List.cons_append, splitLines_append_newline (h line List.mem_cons_self),
      ih fun other hother => h other (List.mem_cons_of_mem line hother)]

theorem joinLines_cons (line : List Char) (lines : List (List Char)) :
    joinLines (line :: lines) = line ++ lines.flatMap ('\n' :: ·) := by
  rw [joinLines]
  induction lines generalizing line with
  | nil => simp [joinWith]
  | cons next lines ih => rw [joinWith, ih, List.flatMap_cons, List.cons_append]; simp

theorem joinLines_append {front back : List (List Char)} (hfront : front ≠ []) (hback : back ≠ []) :
    joinLines (front ++ back) = joinLines front ++ '\n' :: joinLines back := by
  obtain ⟨line, lines, rfl⟩ := List.exists_cons_of_ne_nil hfront
  obtain ⟨next, rest, rfl⟩ := List.exists_cons_of_ne_nil hback
  rw [List.cons_append, joinLines_cons, joinLines_cons, joinLines_cons]
  simp

/-! ## Cutting the blanks at the end -/

/-- The blanks at the end of two pieces are those of the second, and those of the first as well when
    the second is nothing else. -/
theorem trimEnd_append (xs ys : List Char) :
    trimEnd (xs ++ ys) = if trimEnd ys = [] then trimEnd xs else xs ++ trimEnd ys := by
  have hempty : trimEnd ys = [] ↔ (ys.reverse.dropWhile isBlank).isEmpty = true := by
    simp [trimEnd]
  rw [trimEnd, List.reverse_append, List.dropWhile_append]
  by_cases h : trimEnd ys = []
  · rw [if_pos h, if_pos (hempty.1 h), trimEnd]
  · rw [if_neg h, if_neg (mt hempty.2 h), List.reverse_append, List.reverse_reverse, trimEnd]

theorem trimEnd_concat_of_not_blank {c : Char} (h : isBlank c = false) (front : List Char) :
    trimEnd (front ++ [c]) = front ++ [c] := by
  simp [trimEnd, h]

/-- Cutting the blanks at the end leaves everything up to a character that is no blank. -/
theorem trimEnd_append_cons {c : Char} (h : isBlank c = false) (front back : List Char) :
    trimEnd (front ++ c :: back) = front ++ c :: trimEnd back := by
  have hsplit : front ++ c :: back = (front ++ [c]) ++ back := by simp
  rw [hsplit, trimEnd_append, trimEnd_concat_of_not_blank h]
  split
  · rename_i hback
    rw [hback]
  · simp

theorem IsIndent.trimEnd_eq {text : List Char} (h : IsIndent text) : trimEnd text = [] := by
  simpa using trimEnd_append_blanks [] text fun c hc => isBlank_of_isIndent (h c hc)

/-- Cutting the blanks at the end of a comment leaves a comment. -/
theorem IsComment.isComment_trimEnd {text : List Char} (h : IsComment text) :
    IsComment (trimEnd text) ∧ trimEnd text ≠ [] := by
  obtain ⟨hmark, hnewline⟩ := h
  have hnewline' : '\n' ∉ trimEnd text := fun hmem =>
    hnewline (trimEnd_append_rest text ▸ List.mem_append_left _ hmem)
  rcases hmark with ⟨rest, rfl⟩ | ⟨rest, rfl⟩
  · have htrim : trimEnd (['/', '/'] ++ rest) = ['/', '/'] ++ trimEnd rest :=
      trimEnd_append_cons (by decide) ['/'] rest
    exact ⟨⟨.inl ⟨trimEnd rest, htrim.symm⟩, hnewline'⟩, by rw [htrim]; simp⟩
  · have htrim : trimEnd ([';'] ++ rest) = [';'] ++ trimEnd rest :=
      trimEnd_append_cons (by decide) [] rest
    exact ⟨⟨.inr ⟨trimEnd rest, htrim.symm⟩, hnewline'⟩, by rw [htrim]; simp⟩

/-- A text that is not empty and holds no blanks keeps its end. -/
theorem trimEnd_of_isWord {word : List Char} (h : ∀ c ∈ word, isWord c = true) (hne : word ≠ []) :
    trimEnd word = word := by
  rcases List.eq_nil_or_concat word with rfl | ⟨front, c, rfl⟩
  · exact absurd rfl hne
  · rw [List.concat_eq_append] at h ⊢
    exact trimEnd_concat_of_not_blank
      (isBlank_eq_false_of_isWord (h c (List.mem_append_right front List.mem_cons_self))) front

/-- A value ends with a character that is no blank. -/
theorem Value.trimEnd_text {value : Value} (h : value.IsPlain) :
    trimEnd value.text = value.text ∧ value.text ≠ [] := by
  cases value with
  | literal content =>
    exact ⟨trimEnd_concat_of_not_blank (by decide) ('\'' :: content), by simp [text, literalText]⟩
  | list contents =>
    have hsplit : text (.list contents) =
        (['{', ' '] ++ (itemsText contents ++ [' '])) ++ ['}'] := by
      simp [text]
    rw [hsplit]
    exact ⟨trimEnd_concat_of_not_blank (by decide) _, by simp⟩
  | reference name =>
    refine ⟨?_, by simp [text]⟩
    rw [text, ← List.nil_append ('.' :: name), trimEnd_append_cons (by decide)]
    by_cases hname : name = []
    · rw [hname]; rfl
    · rw [trimEnd_of_isWord h hname]
  | word letters => exact ⟨trimEnd_of_isWord h.1 h.2, h.2⟩

/-- A field ends with a character that is no blank. -/
theorem Field.trimEnd_text {field : Field} (h : field.IsPlain) :
    trimEnd field.text = field.text ∧ field.text ≠ [] := by
  have ⟨hvalue, hne⟩ := Value.trimEnd_text h.2
  refine ⟨?_, by simp [text, fieldText]⟩
  have hsplit : field.text = ('.' :: (field.name ++ [' ', '=', ' '])) ++ field.value.text := by
    simp [text, fieldText]
  rw [hsplit, trimEnd_append, hvalue, if_neg hne]

/-- Cutting the blanks at the end of a line leaves a line with its fields, or nothing when the line
    is blank. -/
theorem BodyLine.exists_trimEnd {line : BodyLine} (h : line.IsPlain) :
    ∃ lines : List BodyLine, (∀ line' ∈ lines, line'.IsPlain) ∧
      lines.flatMap fields = line.fields ∧
      trimEnd ('\n' :: line.text) = lines.flatMap fun line' => '\n' :: line'.text := by
  cases line with
  -- Nothing is left of a blank line, its line break neither.
  | blank blanks =>
    have hblank : trimEnd ('\n' :: blanks) = [] := by
      have htrim := trimEnd_append ['\n'] blanks
      rwa [IsIndent.trimEnd_eq h, if_pos rfl] at htrim
    exact ⟨[], by simp, rfl, hblank⟩
  | field indent f trailing =>
    obtain ⟨hindent, hfield, htrailing⟩ := h
    have ⟨htext, hne⟩ := Field.trimEnd_text hfield
    refine ⟨[.field indent f []], ?_, rfl, ?_⟩
    · rintro _ (_ | ⟨_, ⟨⟩⟩)
      exact ⟨hindent, hfield, by simp [IsIndent]⟩
    · have hsplit : '\n' :: text (.field indent f trailing) =
          ('\n' :: indent ++ f.text) ++ trailing := by simp [text]
      rw [hsplit, trimEnd_append, htrailing.trimEnd_eq, if_pos rfl, trimEnd_append, htext,
        if_neg hne]
      simp [text]
  | comment indent note =>
    obtain ⟨hindent, hnote⟩ := h
    have ⟨hcomment, hne⟩ := hnote.isComment_trimEnd
    refine ⟨[.comment indent (trimEnd note)], ?_, rfl, ?_⟩
    · rintro _ (_ | ⟨_, ⟨⟩⟩)
      exact ⟨hindent, hcomment⟩
    · have hsplit : '\n' :: text (.comment indent note) = ('\n' :: indent) ++ note := by simp [text]
      rw [hsplit, trimEnd_append, if_neg hne]
      simp [text]

/-- Cutting the blanks at the end of lines leaves lines with the same fields. -/
theorem exists_trimEnd_lines {lines : List BodyLine} (h : ∀ line ∈ lines, line.IsPlain) :
    ∃ lines' : List BodyLine, (∀ line ∈ lines', line.IsPlain) ∧
      lines'.flatMap BodyLine.fields = lines.flatMap BodyLine.fields ∧
      trimEnd (lines.flatMap fun line => '\n' :: line.text) =
        lines'.flatMap fun line => '\n' :: line.text := by
  induction lines with
  | nil => exact ⟨[], by simp, rfl, rfl⟩
  | cons line lines ih =>
    obtain ⟨lines', hplain, hfields, htrim⟩ :=
      ih fun other hother => h other (List.mem_cons_of_mem line hother)
    rw [List.flatMap_cons, List.flatMap_cons, trimEnd_append, htrim, ← hfields]
    cases lines' with
    | nil =>
      -- The lines after this one were blank, so it is cut as well.
      obtain ⟨last, hlast, hlastFields, hlastTrim⟩ :=
        BodyLine.exists_trimEnd (h line List.mem_cons_self)
      exact ⟨last, hlast, by simpa using hlastFields, by simpa using hlastTrim⟩
    | cons next lines' =>
      refine ⟨line :: next :: lines', ?_, by simp, by simp⟩
      rintro other (_ | ⟨_, hother⟩)
      · exact h line List.mem_cons_self
      · exact hplain other hother

end SoloBuild.Description
