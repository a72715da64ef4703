import SoloBuild.Proofs.PlainDeclaration
import SoloBuild.SingleFile.Target

/-!
# Rewriting the lines of a declaration

A declaration is rewritten line by line: lines are dropped, and in those that are kept a segment is
extended and a placeholder removed. On a plain line both changes stay inside the literals and
comments, because what they look for begins with a backslash and holds no quote. So a plain line
stays plain, and its fields change as their literals do.

## Key results

- `replaceAll_append_of_not_mem`, `replaceAll_append_cons`: replacing piece by piece
- `BodyLine.moveText_text`: on a plain line only the literals, or the comment, change
- `PlainBlock.keptLines_eq`: the lines that are kept of a plain block
-/

namespace SoloBuild.Text

/-! ## Replacing piece by piece -/

/-- Nothing begins in a piece that lacks the first character of what is replaced. -/
theorem replaceAll_append_of_not_mem {c : Char} {old xs : List Char} (h : c ∉ xs)
    (new ys : List Char) :
    replaceAll (c :: old) new (xs ++ ys) = xs ++ replaceAll (c :: old) new ys := by
  rw [replaceAll, replaceAll]
  induction xs with
  | nil => rfl
  | cons x xs ih =>
    simp only [List.mem_cons, not_or] at h
    have hne : (c == x) = false := by simpa using h.1
    rw [List.cons_append, replaceFrom, List.isPrefixOf, hne, ih h.2]
    simp

/-- What is replaced at the front of a text, replaced. -/
theorem replaceAll_append_self (c : Char) (old new rest : List Char) :
    replaceAll (c :: old) new ((c :: old) ++ rest) = new ++ replaceAll (c :: old) new rest := by
  have hskip : ∀ xs : List Char, replaceFrom (c :: old) new xs.length (xs ++ rest) =
      replaceFrom (c :: old) new 0 rest := by
    intro xs
    induction xs with
    | nil => rfl
    | cons x xs ih => exact ih
  have hfront : (c :: old).isPrefixOf (c :: (old ++ rest)) = true :=
    List.isPrefixOf_iff_prefix.2 (List.prefix_append (c :: old) rest)
  show replaceFrom (c :: old) new 0 (c :: (old ++ rest)) = _
  rw [replaceFrom, hfront]
  exact congrArg (new ++ ·) (hskip old)

/-- Where what is replaced does not begin, a text goes on. -/
theorem replaceAll_cons_of_not_starts {c x : Char} {old xs : List Char}
    (h : ¬ (c :: old) <+: x :: xs) (new : List Char) :
    replaceAll (c :: old) new (x :: xs) = x :: replaceAll (c :: old) new xs := by
  have hfront : (c :: old).isPrefixOf (x :: xs) = false :=
    Bool.eq_false_iff.2 (mt List.isPrefixOf_iff_prefix.1 h)
  rw [replaceAll, replaceFrom, hfront]
  rfl

/-- A front reaches over no character that it lacks. -/
theorem isPrefixOf_append_cons {q : Char} {old : List Char} (h : q ∉ old)
    (xs ys : List Char) : old.isPrefixOf (xs ++ q :: ys) = old.isPrefixOf xs := by
  induction old generalizing xs with
  | nil => simp
  | cons o old ih =>
    simp only [List.mem_cons, not_or] at h
    cases xs with
    | nil =>
      have hne : (o == q) = false := by simpa using Ne.symm h.1
      simp [List.isPrefixOf, hne]
    | cons x xs => simp only [List.cons_append, List.isPrefixOf, ih h.2]

private theorem replaceFrom_append_cons {q c : Char} {old : List Char} (h : q ∉ c :: old)
    (new xs ys : List Char) (skip : Nat) (hskip : skip ≤ xs.length) :
    replaceFrom (c :: old) new skip (xs ++ q :: ys) =
      replaceFrom (c :: old) new skip xs ++ q :: replaceFrom (c :: old) new 0 ys := by
  induction xs generalizing skip with
  | nil =>
    obtain rfl : skip = 0 := by simpa using hskip
    have hne : (c == q) = false := by
      simp only [List.mem_cons, not_or] at h
      simpa using Ne.symm h.1
    simp [replaceFrom, List.isPrefixOf, hne]
  | cons x xs ih =>
    cases skip with
    | succ skip => exact ih skip (by simpa using hskip)
    | zero =>
      have hfront := isPrefixOf_append_cons h (x :: xs) ys
      rw [List.cons_append] at hfront
      simp only [List.cons_append, replaceFrom, List.isEmpty_cons, Bool.false_eq_true, if_false,
        hfront]
      split
      · rename_i hprefix
        -- What is skipped after a match lies before the separating character.
        have hlength := (List.isPrefixOf_iff_prefix.1 hprefix).length_le
        rw [ih _ (by simpa using hlength), List.append_assoc]
      · rw [ih 0 (Nat.zero_le _), List.cons_append]

/-- A character that is not in what is replaced separates the text. -/
theorem replaceAll_append_cons {q c : Char} {old : List Char} (h : q ∉ c :: old)
    (new xs ys : List Char) :
    replaceAll (c :: old) new (xs ++ q :: ys) =
      replaceAll (c :: old) new xs ++ q :: replaceAll (c :: old) new ys :=
  replaceFrom_append_cons h new xs ys 0 (Nat.zero_le _)

/-- Replacing brings in no characters but those of the new text. -/
theorem mem_replaceAll {c d : Char} {old new text : List Char}
    (h : d ∈ replaceAll (c :: old) new text) : d ∈ text ∨ d ∈ new := by
  -- Over the text, for every number of characters that a match leaves to skip.
  have hfrom : ∀ skip, d ∈ replaceFrom (c :: old) new skip text → d ∈ text ∨ d ∈ new := by
    clear h
    induction text with
    | nil => intro skip hmem; cases skip <;> simp [replaceFrom] at hmem
    | cons x xs ih =>
      intro skip hmem
      cases skip with
      | succ skip => exact (ih skip hmem).imp_left (List.mem_cons_of_mem x)
      | zero =>
        simp only [replaceFrom, List.isEmpty_cons, Bool.false_eq_true, if_false] at hmem
        split at hmem
        · rcases List.mem_append.1 hmem with hnew | hrest
          · exact .inr hnew
          · exact (ih _ hrest).imp_left (List.mem_cons_of_mem x)
        · rcases List.mem_cons.1 hmem with rfl | hrest
          · exact .inl List.mem_cons_self
          · exact (ih _ hrest).imp_left (List.mem_cons_of_mem x)
  exact hfrom 0 h

theorem occursIn_eq_false_of_not_mem {c : Char} {needle text : List Char} (hneedle : c ∈ needle)
    (h : c ∉ text) : occursIn needle text = false := by
  cases hoccurs : occursIn needle text with
  | false => rfl
  | true => exact absurd ((occursIn_iff.1 hoccurs).subset hneedle) h

/-- A character that a text lacks separates its occurrences. -/
theorem occursIn_append_cons {q : Char} {needle : List Char} (h : q ∉ needle) (xs ys : List Char) :
    occursIn needle (xs ++ q :: ys) = (occursIn needle xs || occursIn needle ys) := by
  induction xs with
  | nil =>
    have hfront := isPrefixOf_append_cons h [] ys
    show (needle.isPrefixOf (q :: ys) || occursIn needle ys) = _
    rw [← List.nil_append (q :: ys), hfront]
    cases needle <;> rfl
  | cons x xs ih =>
    have hfront := isPrefixOf_append_cons h (x :: xs) ys
    show (needle.isPrefixOf (x :: xs ++ q :: ys) || occursIn needle (xs ++ q :: ys)) = _
    rw [hfront, ih, ← Bool.or_assoc]
    rfl

/-- Nothing occurs in a front that lacks the first character of it, or begins there. -/
theorem occursIn_append_of_not_mem {c : Char} {needle xs : List Char} (h : c ∉ xs)
    (ys : List Char) : occursIn (c :: needle) (xs ++ ys) = occursIn (c :: needle) ys := by
  induction xs with
  | nil => rfl
  | cons x xs ih =>
    simp only [List.mem_cons, not_or] at h
    have hne : (c == x) = false := by simpa using h.1
    rw [List.cons_append, occursIn, List.isPrefixOf, hne, ih h.2]
    simp

/-- Nothing occurs in an end that lacks its characters, or reaches into it. -/
theorem occursIn_append_of_disjoint {c : Char} {needle ys : List Char}
    (h : ∀ d ∈ c :: needle, d ∉ ys) (xs : List Char) :
    occursIn (c :: needle) (xs ++ ys) = occursIn (c :: needle) xs := by
  cases ys with
  | nil => rw [List.append_nil]
  | cons y ys =>
    have hfirst : c ∉ ys := fun hmem => h c List.mem_cons_self (List.mem_cons_of_mem y hmem)
    have hend : y ∉ c :: needle := fun hmem => h y hmem List.mem_cons_self
    rw [occursIn_append_cons hend, occursIn_eq_false_of_not_mem List.mem_cons_self hfirst,
      Bool.or_false]

end SoloBuild.Text

namespace SoloBuild.SingleFile

open Text Description

/-! ## Relocating lines -/

/-- A text without the placeholder of the directory, and with the segment of intermediate output
    extended when `moved`. -/
def moveText (moved : Bool) (text : List Char) : List Char :=
  replaceAll "\\$_CURRENT_BFF_DIR_$".toList []
    (if moved then replaceAll "\\int\\".toList "\\int\\CompileSingleFile\\".toList text else text)

theorem relocate_eq (line : List Char) :
    relocate {} line = moveText (occursIn ".Intermediate".toList line) line := by
  have hsegment : ({} : Settings).channelIntermediateSegment =
      "\\int\\CompileSingleFile\\".toList := by
    decide
  rw [relocate, hsegment]
  rfl

theorem placeholder_eq :
    "\\$_CURRENT_BFF_DIR_$".toList = '\\' :: "$_CURRENT_BFF_DIR_$".toList := by
  simp

theorem segment_eq : "\\int\\".toList = '\\' :: "int\\".toList := by
  simp

/-- Nothing changes before the first backslash. -/
theorem moveText_append_of_not_mem {xs : List Char} (h : '\\' ∉ xs) (moved : Bool)
    (ys : List Char) : moveText moved (xs ++ ys) = xs ++ moveText moved ys := by
  rw [moveText, moveText, placeholder_eq, segment_eq]
  cases moved with
  | false => exact replaceAll_append_of_not_mem h [] ys
  | true =>
    rw [if_pos rfl, if_pos rfl, replaceAll_append_of_not_mem h, replaceAll_append_of_not_mem h]

theorem moveText_of_not_mem {text : List Char} (h : '\\' ∉ text) (moved : Bool) :
    moveText moved text = text := by
  have hnil : moveText moved [] = [] := by cases moved <;> rfl
  have happend := moveText_append_of_not_mem h moved []
  rwa [hnil, List.append_nil] at happend

/-- A character that is part neither of the segment nor of the placeholder separates what is changed.
-/
theorem moveText_append_cons {q : Char} (hsegment : q ∉ '\\' :: "int\\".toList)
    (hplaceholder : q ∉ '\\' :: "$_CURRENT_BFF_DIR_$".toList) (moved : Bool) (xs ys : List Char) :
    moveText moved (xs ++ q :: ys) = moveText moved xs ++ q :: moveText moved ys := by
  simp only [moveText, placeholder_eq, segment_eq]
  cases moved with
  | false => exact replaceAll_append_cons hplaceholder [] xs ys
  | true =>
    simp only [if_true]
    rw [replaceAll_append_cons hsegment, replaceAll_append_cons hplaceholder]

/-- A change brings in no characters but those of the segment. -/
theorem mem_moveText {moved : Bool} {text : List Char} {c : Char} (h : c ∈ moveText moved text) :
    c ∈ text ∨ c ∈ "\\int\\CompileSingleFile\\".toList := by
  rw [moveText, placeholder_eq] at h
  have hmem := (mem_replaceAll h).resolve_right List.not_mem_nil
  cases moved with
  | false => exact .inl hmem
  | true =>
    rw [if_pos rfl, segment_eq] at hmem
    exact mem_replaceAll hmem

/-- A change brings in no character that the segment lacks. -/
theorem not_mem_moveText {c : Char} (hc : c ∉ "\\int\\CompileSingleFile\\".toList)
    {text : List Char} (h : c ∉ text) (moved : Bool) : c ∉ moveText moved text :=
  fun hmem => (mem_moveText hmem).elim h hc

end SoloBuild.SingleFile

namespace SoloBuild.Description

open Text SingleFile

/-- A value with its literals changed. -/
def Value.move (moved : Bool) : Value → Value
  | .literal content => .literal (moveText moved content)
  | .list contents => .list (contents.map (moveText moved))
  | .reference name => .reference name
  | .word letters => .word letters

/-- A field with the literals of its value changed. -/
def Field.move (moved : Bool) (field : Field) : Field :=
  ⟨field.name, field.value.move moved⟩

/-- A line with its literals, or its comment, changed. -/
def BodyLine.move (moved : Bool) : BodyLine → BodyLine
  | .blank blanks => .blank blanks
  | .field indent f trailing => .field indent (f.move moved) trailing
  | .comment indent note => .comment indent (moveText moved note)

/-! ### Plain lines stay plain -/

theorem isPlainContent_moveText {content : List Char} (h : IsPlainContent content ∧ '\n' ∉ content)
    (moved : Bool) :
    IsPlainContent (moveText moved content) ∧ '\n' ∉ moveText moved content := by
  refine ⟨fun c hc => ⟨?_, ?_⟩, not_mem_moveText (by decide) h.2 moved⟩
  · rintro rfl
    exact not_mem_moveText (by decide) (fun hmem => (h.1 _ hmem).1 rfl) moved hc
  · rintro rfl
    exact not_mem_moveText (by decide) (fun hmem => (h.1 _ hmem).2 rfl) moved hc

theorem Value.IsPlain.move {value : Value} (h : value.IsPlain) (moved : Bool) :
    (value.move moved).IsPlain := by
  cases value with
  | literal content => exact isPlainContent_moveText h moved
  | list contents =>
    intro content hcontent
    obtain ⟨old, hold, rfl⟩ := List.mem_map.1 hcontent
    exact isPlainContent_moveText (h old hold) moved
  | reference name => exact h
  | word letters => exact h

/-- The mark of a comment is not changed. -/
theorem IsComment.moveText {note : List Char} (h : IsComment note) (moved : Bool) :
    IsComment (moveText moved note) := by
  obtain ⟨hmark, hnewline⟩ := h
  refine ⟨?_, not_mem_moveText (by decide) hnewline moved⟩
  rcases hmark with ⟨rest, rfl⟩ | ⟨rest, rfl⟩
  · exact .inl ⟨_, (moveText_append_of_not_mem (by decide) moved rest).symm⟩
  · exact .inr ⟨_, (moveText_append_of_not_mem (by decide) moved rest).symm⟩

theorem BodyLine.IsPlain.move {line : BodyLine} (h : line.IsPlain) (moved : Bool) :
    (line.move moved).IsPlain := by
  cases line with
  | blank blanks => exact h
  | field indent f trailing => exact ⟨h.1, ⟨h.2.1.1, h.2.1.2.move moved⟩, h.2.2⟩
  | comment indent note => exact ⟨h.1, h.2.moveText moved⟩

/-! ### The text of a changed line -/

theorem moveText_literalText (content : List Char) (moved : Bool) (rest : List Char) :
    moveText moved (literalText content ++ rest) =
      literalText (moveText moved content) ++ moveText moved rest := by
  have hquote : '\\' ∉ ['\''] := by decide
  have hopen := moveText_append_of_not_mem hquote moved (content ++ '\'' :: rest)
  rw [moveText_append_cons (by decide) (by decide)] at hopen
  simpa [literalText] using hopen

theorem moveText_itemsText (contents : List (List Char)) (moved : Bool) (rest : List Char) :
    moveText moved (itemsText contents ++ rest) =
      itemsText (contents.map (moveText moved)) ++ moveText moved rest := by
  induction contents with
  | nil => rfl
  | cons content contents ih =>
    cases contents with
    | nil => exact moveText_literalText content moved rest
    | cons next contents =>
      have hcomma : '\\' ∉ [',', ' '] := by decide
      have hcons : ∀ first second others, itemsText (first :: second :: others) =
          literalText first ++ ([',', ' '] ++ itemsText (second :: others)) :=
        fun _ _ _ => List.append_assoc ..
      rw [hcons, List.append_assoc, List.append_assoc, moveText_literalText,
        moveText_append_of_not_mem hcomma, ih]
      simp only [List.map_cons, hcons, List.append_assoc]

/-- Nothing of a word is changed. -/
theorem backslash_not_mem_of_isWord {word : List Char} (h : ∀ c ∈ word, isWord c = true) :
    '\\' ∉ word :=
  not_mem_of_isWord h (by decide)

theorem Value.moveText_text {value : Value} (h : value.IsPlain) (moved : Bool) (rest : List Char) :
    moveText moved (value.text ++ rest) = (value.move moved).text ++ moveText moved rest := by
  cases value with
  | literal content => exact moveText_literalText content moved rest
  | list contents =>
    have hclose : '\\' ∉ [' ', '}'] := by decide
    rw [text, List.append_assoc, moveText_append_of_not_mem (by decide), List.append_assoc,
      moveText_itemsText, moveText_append_of_not_mem hclose]
    simp [Value.move, text]
  | reference name =>
    exact moveText_append_of_not_mem (by simp [text, backslash_not_mem_of_isWord h]) moved rest
  | word letters =>
    exact moveText_append_of_not_mem (backslash_not_mem_of_isWord h.1) moved rest

theorem IsIndent.backslash_not_mem {indent : List Char} (h : IsIndent indent) : '\\' ∉ indent :=
  fun hmem => absurd (h _ hmem) (by decide)

/-- Changing the text of a plain line changes its literals, or its comment. -/
theorem BodyLine.moveText_text {line : BodyLine} (h : line.IsPlain) (moved : Bool) :
    moveText moved line.text = (line.move moved).text := by
  cases line with
  | blank blanks => exact moveText_of_not_mem (IsIndent.backslash_not_mem h) moved
  | field indent f trailing =>
    obtain ⟨hindent, hfield, htrailing⟩ := h
    -- Only the value can hold a backslash.
    have hsplit : text (.field indent f trailing) =
        (indent ++ '.' :: (f.name ++ [' ', '=', ' '])) ++ (f.value.text ++ trailing) := by
      simp [text, Field.text, fieldText]
    have hfront : '\\' ∉ indent ++ '.' :: (f.name ++ [' ', '=', ' ']) := by
      simp [hindent.backslash_not_mem, backslash_not_mem_of_isWord hfield.1]
    rw [hsplit, moveText_append_of_not_mem hfront, Value.moveText_text hfield.2,
      moveText_of_not_mem htrailing.backslash_not_mem]
    simp [BodyLine.move, text, Field.text, fieldText, Field.move]
  | comment indent note =>
    exact moveText_append_of_not_mem h.1.backslash_not_mem moved note

end SoloBuild.Description

namespace SoloBuild.SingleFile

open Text Description

/-! ## The lines that are kept -/

/-- A line without points and quotes is not dropped. -/
theorem isDropped_eq_false {line : List Char} (hpoint : '.' ∉ line) (hquote : '\'' ∉ line) :
    isDropped {} line = false := by
  have hunity : '.' ∈ ({} : Settings).unityField.toList := by decide
  have hcopy : '\'' ∈ ({} : Settings).copyStepMarker.toList := by decide
  rw [isDropped, occursIn_eq_false_of_not_mem hunity hpoint,
    occursIn_eq_false_of_not_mem hcopy hquote]
  rfl

/-- A front is kept when the reader reads nothing that begins in it. -/
theorem cutFrom_append_of_eq_none {after? : List Char → Option (List Char)} {xs ys : List Char}
    (h : ∀ suffix, suffix <:+ xs → suffix ≠ [] → after? (suffix ++ ys) = none) :
    cutFrom after? 0 (xs ++ ys) = xs ++ cutFrom after? 0 ys := by
  induction xs with
  | nil => rfl
  | cons c cs ih =>
    have hnone := h _ (List.suffix_refl _) (List.cons_ne_nil c cs)
    rw [List.cons_append] at hnone ⊢
    rw [cutFrom, hnone]
    simp only [ih fun suffix hsuffix => h suffix (hsuffix.trans (List.suffix_cons c cs)),
      List.cons_append]

/-- Nothing is cut where the reader reads nothing. -/
theorem cutFrom_of_eq_none {after? : List Char → Option (List Char)} {text : List Char}
    (h : ∀ suffix, suffix <:+ text → after? suffix = none) : cutFrom after? 0 text = text := by
  have hkeep := @cutFrom_append_of_eq_none after? text [] fun suffix hsuffix _ => by
    rw [List.append_nil]
    exact h suffix hsuffix
  rwa [cutFrom, List.append_nil] at hkeep

/-- A line without points keeps its fields. -/
theorem cutInlineFields_of_not_mem {line : List Char} (h : '.' ∉ line) (marker : List Char) :
    cutInlineFields ({} : Settings).unityField.toList marker line = line := by
  have hpoint : ∀ {front suffix : List Char}, suffix <:+ line → '.' ∈ front →
      afterFront? front suffix = none := by
    intro front suffix hsuffix hfront
    rw [Option.eq_none_iff_forall_ne_some]
    intro rest hrest
    rw [afterFront?_eq_some_iff] at hrest
    exact h (hsuffix.subset (hrest ▸ List.mem_append_left rest hfront))
  have hunity : '.' ∈ ({} : Settings).unityField.toList := by decide
  have hfirst : ∀ suffix, suffix <:+ line →
      afterUnityField? ({} : Settings).unityField.toList suffix = none := by
    intro suffix hsuffix
    rw [afterUnityField?, hpoint hsuffix hunity]
    rfl
  rw [cutInlineFields, cutFrom_of_eq_none hfirst]
  refine cutFrom_of_eq_none fun suffix hsuffix => ?_
  rw [afterCopyStepField?, hpoint hsuffix List.mem_cons_self]
  rfl

theorem keptLines_append_singleton (s : Settings) (front : List (List Char)) (last : List Char) :
    keptLines s (front ++ [last]) =
      (front.filter fun line => !isDropped s line).map (relocate s) ++
        [relocate s (cutInlineFields s.unityField.toList s.copyStepMarker.toList last)] := by
  rw [keptLines]
  simp

end SoloBuild.SingleFile

namespace SoloBuild.Description

open Text SingleFile

/-- What follows the header of a plain declaration: its braces on lines of their own, and plain
    lines between them. -/
structure PlainBlock where
  /-- The blanks after the header. -/
  afterHeader : List Char
  /-- The blanks before and after the opening brace. -/
  beforeOpen : List Char
  afterOpen : List Char
  lines : List BodyLine
  /-- The blanks before the closing brace. -/
  beforeClose : List Char
  indents : IsIndent afterHeader ∧ IsIndent beforeOpen ∧ IsIndent afterOpen ∧ IsIndent beforeClose
  plain : ∀ line ∈ lines, line.IsPlain

namespace PlainBlock

/-- The text of the block, from the end of the header. -/
def text (block : PlainBlock) : List Char :=
  block.afterHeader ++ '\n' :: (block.beforeOpen ++ '{' :: (block.afterOpen ++
    ((block.lines.flatMap fun line => '\n' :: line.text) ++ '\n' :: (block.beforeClose ++ ['}']))))

/-- The lines that a single-file target keeps, with their literals changed. -/
def keptLines (block : PlainBlock) : List BodyLine :=
  (block.lines.filter fun line => !isDropped {} line.text).map fun line =>
    line.move (occursIn ".Intermediate".toList line.text)

theorem isPlain_of_mem_keptLines (block : PlainBlock) {line : BodyLine}
    (h : line ∈ block.keptLines) : line.IsPlain := by
  obtain ⟨old, hold, rfl⟩ := List.mem_map.1 h
  exact (block.plain old (List.mem_filter.1 hold).1).move _

/-- The block is made of lines. -/
theorem splitLines_text (block : PlainBlock) :
    splitLines block.text = block.afterHeader :: (block.beforeOpen ++ '{' :: block.afterOpen) ::
      block.lines.map BodyLine.text ++ [block.beforeClose ++ ['}']] := by
  obtain ⟨hheader, hbefore, hafter, hclose⟩ := block.indents
  have hlines : ∀ line ∈ block.afterHeader :: (block.beforeOpen ++ '{' :: block.afterOpen) ::
      block.lines.map BodyLine.text ++ [block.beforeClose ++ ['}']], '\n' ∉ line := by
    simp only [List.cons_append, List.mem_cons, List.mem_append, List.mem_map, List.not_mem_nil,
      or_false]
    rintro line (rfl | rfl | ⟨old, hold, rfl⟩ | rfl)
    · exact hheader.newline_not_mem
    · simp [hbefore.newline_not_mem, hafter.newline_not_mem]
    · exact BodyLine.newline_not_mem_text (block.plain old hold)
    · simp [hclose.newline_not_mem]
  have htext : block.text = block.afterHeader ++
      ((block.beforeOpen ++ '{' :: block.afterOpen) :: (block.lines.map BodyLine.text ++
        [block.beforeClose ++ ['}']])).flatMap ('\n' :: ·) := by
    simp [text, List.flatMap_map]
  rw [htext]
  exact splitLines_flatMap hlines

/-- The lines of the new body of a plain block. -/
theorem keptLines_eq (block : PlainBlock) :
    SingleFile.keptLines {} (splitLines block.text) =
      block.afterHeader :: (block.beforeOpen ++ '{' :: block.afterOpen) ::
        block.keptLines.map BodyLine.text ++ [block.beforeClose ++ ['}']] := by
  obtain ⟨hheader, hbefore, hafter, hclose⟩ := block.indents
  have hnot : ∀ {indent : List Char} {c : Char}, IsIndent indent → ReadState.isIndent c = false →
      c ∉ indent := fun hindent hc hmem =>
      absurd (hc.symm.trans (hindent _ hmem)) Bool.false_ne_true
  -- Neither the rest of the header nor the braces are changed.
  have hkept : ∀ line : List Char, '.' ∉ line → '\'' ∉ line → '\\' ∉ line →
      isDropped {} line = false ∧ relocate {} line = line := by
    intro line hpoint hquote hbackslash
    rw [relocate_eq, moveText_of_not_mem hbackslash]
    exact ⟨isDropped_eq_false hpoint hquote, rfl⟩
  have hfirst := hkept block.afterHeader (hnot hheader rfl) (hnot hheader rfl) (hnot hheader rfl)
  have hopen := hkept (block.beforeOpen ++ '{' :: block.afterOpen)
    (by simp [hnot hbefore, hnot hafter, ReadState.isIndent])
    (by simp [hnot hbefore, hnot hafter, ReadState.isIndent])
    (by simp [hnot hbefore, hnot hafter, ReadState.isIndent])
  have hlast := (hkept (block.beforeClose ++ ['}']) (by simp [hnot hclose, ReadState.isIndent])
    (by simp [hnot hclose, ReadState.isIndent]) (by simp [hnot hclose, ReadState.isIndent])).2
  have hpoint : '.' ∉ block.beforeClose ++ ['}'] := by simp [hnot hclose, ReadState.isIndent]
  have hcut := cutInlineFields_of_not_mem hpoint ({} : Settings).copyStepMarker.toList
  have hlines : ((block.lines.map BodyLine.text).filter fun line => !isDropped {} line).map
      (relocate {}) = block.keptLines.map BodyLine.text := by
    rw [List.filter_map, List.map_map, keptLines, List.map_map]
    refine List.map_congr_left fun line hline => ?_
    have hplain := block.plain line (List.mem_filter.1 hline).1
    simp only [Function.comp_apply, relocate_eq, BodyLine.moveText_text hplain]
  rw [splitLines_text, keptLines_append_singleton, hcut, hlast]
  simp only [List.filter_cons, hfirst.1, hopen.1, Bool.not_false, if_true, List.map_cons, hfirst.2,
    hopen.2, hlines]

end PlainBlock

end SoloBuild.Description
