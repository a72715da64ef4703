import SoloBuild.Proofs.RewriteLines

/-!
# Cutting fields out of a row

The fields of a declaration on one line stand in a row, with semicolons between them. What is cut out
of the row is cut by two readers that know nothing of fields: each is tried at every character of the
line, inside literals as well, and takes what it reads together with a separator. On a row of fields
whose values are literals or lists of literals, nothing but whole fields is ever taken: a reader that
begins inside a literal is stopped by the quote that closes it.

## Key results

- `CutsFields.cutFrom_row`: a reader that takes whole fields leaves the row of the others
- `afterCopyStepField?_cases`: where a reader of copy steps can stop
- `cutsFields_unity`, `cutsFields_copyStep`: both readers take whole fields
- `cutInlineFields_row`: the row that is left
-/

namespace SoloBuild.Description

open Text

/-! ## Simple fields -/

/-- A text that can stand in a literal of a row: it closes no literal and no list. -/
def IsSimpleContent (content : List Char) : Prop :=
  ∀ c ∈ content, c ∉ ['\'', '^', '{', '}', '\n']

instance (content : List Char) : Decidable (IsSimpleContent content) :=
  inferInstanceAs (Decidable (∀ c ∈ content, _))

/-- A literal, or a list of literals. -/
def Value.IsSimple : Value → Prop
  | .literal content => IsSimpleContent content
  | .list contents => ∀ content ∈ contents, IsSimpleContent content
  | .reference _ => False
  | .word _ => False

instance : (value : Value) → Decidable value.IsSimple
  | .literal content => inferInstanceAs (Decidable (IsSimpleContent content))
  | .list contents => inferInstanceAs (Decidable (∀ content ∈ contents, _))
  | .reference _ => inferInstanceAs (Decidable False)
  | .word _ => inferInstanceAs (Decidable False)

/-- A field with a name, which is never empty, and a value of literals. -/
structure SimpleField extends Field where
  word : ∀ c ∈ name, isWord c = true
  ne_nil : name ≠ []
  simple : value.IsSimple

theorem IsSimpleContent.isPlain {content : List Char} (h : IsSimpleContent content) :
    IsPlainContent content ∧ '\n' ∉ content := by
  constructor
  · intro c hc
    have hmarks := h c hc
    simp only [List.mem_cons, not_or] at hmarks
    exact ⟨hmarks.1, hmarks.2.1⟩
  · intro hmem
    exact h _ hmem (by decide)

theorem Value.IsSimple.isPlain {value : Value} (h : value.IsSimple) : value.IsPlain := by
  cases value with
  | literal content => exact IsSimpleContent.isPlain h
  | list contents => exact fun content hcontent => (h content hcontent).isPlain
  | reference name => exact absurd h id
  | word letters => exact absurd h id

theorem SimpleField.isPlain (field : SimpleField) : field.IsPlain :=
  ⟨field.word, field.simple.isPlain⟩

/-- The text of the literals of a simple list holds no brace. -/
theorem brace_not_mem_itemsText {contents : List (List Char)}
    (h : ∀ content ∈ contents, IsSimpleContent content) {c : Char} (hc : c = '{' ∨ c = '}') :
    c ∉ itemsText contents := by
  have hliteral : ∀ content, IsSimpleContent content → c ∉ literalText content := by
    intro content hcontent hmem
    simp only [literalText, List.mem_cons, List.mem_append, List.not_mem_nil, or_false] at hmem
    rcases hmem with hmem | hmem | hmem
    · rcases hc with rfl | rfl <;> revert hmem <;> decide
    · exact hcontent c hmem (by rcases hc with rfl | rfl <;> decide)
    · rcases hc with rfl | rfl <;> revert hmem <;> decide
  induction contents with
  | nil => exact List.not_mem_nil
  | cons content contents ih =>
    have hfirst := hliteral content (h content List.mem_cons_self)
    have hrest := ih fun other hother => h other (List.mem_cons_of_mem content hother)
    cases contents with
    | nil => exact hfirst
    | cons next contents =>
      have hcomma : c ∉ [',', ' '] := by rcases hc with rfl | rfl <;> decide
      simp only [itemsText, List.mem_append, not_or]
      exact ⟨⟨hfirst, hcomma⟩, hrest⟩

end SoloBuild.Description

namespace SoloBuild.SingleFile

open Text Description

/-! ## Rows of fields -/

/-- What may follow a field in a row. -/
inductive Separator where
  /-- A semicolon and a blank, before the next field. -/
  | semicolon
  /-- The blank before the brace. -/
  | blank
  deriving DecidableEq, Repr

def Separator.text : Separator → List Char
  | semicolon => [';', ' ']
  | blank => [' ']

/-- A field in a row, with what follows it. -/
structure RowItem where
  field : SimpleField
  separator : Separator

namespace RowItem

def text (item : RowItem) : List Char :=
  item.field.text ++ item.separator.text

theorem text_eq_cons (item : RowItem) : ∃ cs, item.text = '.' :: cs := by
  unfold text Field.text fieldText
  exact ⟨_, rfl⟩

end RowItem

/-- The text of a row. -/
def rowText (items : List RowItem) : List Char :=
  items.flatMap RowItem.text

@[simp] theorem rowText_nil : rowText [] = [] := rfl

@[simp] theorem rowText_cons (item : RowItem) (items : List RowItem) :
    rowText (item :: items) = item.text ++ rowText items := rfl

/-- The text after a field begins with the next field, or with the brace that closes the row. -/
def StartsRow (text : List Char) : Prop :=
  ∃ c cs, text = c :: cs ∧ (c = '.' ∨ c = '}')

theorem startsRow_rowText (items : List RowItem) : StartsRow (rowText items ++ ['}']) := by
  cases items with
  | nil => exact ⟨'}', [], rfl, .inr rfl⟩
  | cons item items =>
    obtain ⟨cs, htext⟩ := item.text_eq_cons
    exact ⟨'.', cs ++ (rowText items ++ ['}']), by rw [rowText_cons, htext]; simp, .inl rfl⟩

/-- The separator after a field goes with it. -/
theorem afterSeparator_append (separator : Separator) {rest : List Char} (hrest : StartsRow rest) :
    afterSeparator (separator.text ++ rest) = rest := by
  obtain ⟨c, cs, rfl, hc⟩ := hrest
  have hblank : isBlank c = false := by rcases hc with rfl | rfl <;> decide
  have hskip : skipBlanks ([' '] ++ c :: cs) = c :: cs := skipBlanks_append (by decide) hblank cs
  unfold afterSeparator
  cases separator with
  | semicolon =>
    have hsemicolon : skipBlanks (Separator.semicolon.text ++ c :: cs) =
        ';' :: ([' '] ++ c :: cs) :=
      skipBlanks_append (fun b hb => absurd hb List.not_mem_nil) (by decide) _
    rw [hsemicolon]
    exact hskip
  | blank =>
    have hnone : skipBlanks (Separator.blank.text ++ c :: cs) = c :: cs := hskip
    rw [hnone]
    rcases hc with rfl | rfl <;> rfl

/-! ## What a reader leaves of a row -/

/-- What a reader takes is cut, wherever the reading goes on. -/
theorem cutFrom_append_of_eq_some {after? : List Char → Option (List Char)} {xs ys : List Char}
    (hne : xs ≠ []) (h : after? (xs ++ ys) = some ys) :
    cutFrom after? 0 (xs ++ ys) = cutFrom after? 0 ys := by
  have hskip : ∀ cs : List Char, cutFrom after? cs.length (cs ++ ys) = cutFrom after? 0 ys := by
    intro cs
    induction cs with
    | nil => rfl
    | cons c cs ih =>
      rw [List.length_cons, List.cons_append, cutFrom]
      exact ih
  obtain ⟨c, cs, rfl⟩ := List.exists_cons_of_ne_nil hne
  have hlength : (cs ++ ys).length - ys.length = cs.length := by
    rw [List.length_append]
    omega
  rw [List.cons_append] at h ⊢
  rw [cutFrom, h]
  show cutFrom after? ((cs ++ ys).length - ys.length) (cs ++ ys) = _
  rw [hlength, hskip]

/-- A reader takes whole fields, those that mention a text: it begins at a point, stops behind the
separator of a field that mentions the text, and passes over a field that does not. -/
structure CutsFields (after? : List Char → Option (List Char)) (mentioned : List Char)
    (items : List RowItem) : Prop where
  point : ∀ c cs, c ≠ '.' → after? (c :: cs) = none
  cuts : ∀ item ∈ items, occursIn mentioned item.field.text = true → ∀ rest, StartsRow rest →
    after? (item.text ++ rest) = some rest
  keeps : ∀ item ∈ items, occursIn mentioned item.field.text = false → ∀ rest,
    cutFrom after? 0 (item.text ++ rest) = item.text ++ cutFrom after? 0 rest

/-- A reader that begins at a point passes over a text without points. -/
theorem cutFrom_append_of_not_mem {after? : List Char → Option (List Char)} {xs : List Char}
    (hpoint : ∀ c cs, c ≠ '.' → after? (c :: cs) = none) (hxs : '.' ∉ xs) (ys : List Char) :
    cutFrom after? 0 (xs ++ ys) = xs ++ cutFrom after? 0 ys := by
  refine cutFrom_append_of_eq_none fun suffix hsuffix hne => ?_
  obtain ⟨c, cs, rfl⟩ := List.exists_cons_of_ne_nil hne
  refine hpoint c _ ?_
  rintro rfl
  exact hxs (hsuffix.subset List.mem_cons_self)

/-- A reader that takes whole fields leaves the row of the others. -/
theorem CutsFields.cutFrom_row {after? : List Char → Option (List Char)} {mentioned : List Char}
    {items : List RowItem} (h : CutsFields after? mentioned items) :
    cutFrom after? 0 (rowText items ++ ['}']) =
      rowText (items.filter fun item => !occursIn mentioned item.field.text) ++ ['}'] := by
  induction items with
  | nil =>
    show cutFrom after? 0 (['}'] ++ []) = _
    rw [cutFrom_append_of_not_mem h.point (by decide)]
    rfl
  | cons item items ih =>
    have hrest := ih ⟨h.point, fun other hother => h.cuts other (List.mem_cons_of_mem item hother),
      fun other hother => h.keeps other (List.mem_cons_of_mem item hother)⟩
    rw [rowText_cons, List.append_assoc, List.filter_cons]
    cases hmentioned : occursIn mentioned item.field.text with
    | true =>
      have hne : item.text ≠ [] := by
        obtain ⟨cs, htext⟩ := item.text_eq_cons
        rw [htext]
        exact List.cons_ne_nil '.' cs
      rw [cutFrom_append_of_eq_some hne
        (h.cuts item List.mem_cons_self hmentioned _ (startsRow_rowText items)), hrest]
      simp
    | false =>
      rw [h.keeps item List.mem_cons_self hmentioned, hrest]
      simp

/-! ## Reading a simple field -/

/-- A front that the text up to some character does not begin with, and that lacks that character,
does not begin the text. -/
theorem afterFront?_append_cons {q : Char} {front xs : List Char} (hq : q ∉ front)
    (h : ¬ front <+: xs) (ys : List Char) : afterFront? front (xs ++ q :: ys) = none := by
  rw [Option.eq_none_iff_forall_ne_some]
  intro rest hrest
  rw [afterFront?_eq_some_iff] at hrest
  refine h (List.isPrefixOf_iff_prefix.1 ?_)
  rw [← isPrefixOf_append_cons hq xs ys, hrest, List.isPrefixOf_iff_prefix]
  exact List.prefix_append front rest

/-- The inside of the text of a list. -/
def listInside (contents : List (List Char)) : List Char :=
  ' ' :: (itemsText contents ++ [' '])

theorem listText_eq (contents : List (List Char)) :
    Value.text (.list contents) = '{' :: (listInside contents ++ ['}']) := by
  simp [Value.text, listInside]

theorem brace_not_mem_listInside {contents : List (List Char)}
    (h : ∀ content ∈ contents, IsSimpleContent content) {c : Char} (hc : c = '{' ∨ c = '}') :
    c ∉ listInside contents := by
  have hblank : c ≠ ' ' := by rcases hc with rfl | rfl <;> decide
  simp [listInside, brace_not_mem_itemsText h hc, hblank]

theorem not_isBrace_of_not_mem {inside : List Char} (hopen : '{' ∉ inside) (hclose : '}' ∉ inside) :
    ∀ c ∈ inside, (!isBrace c) = true := by
  intro c hc
  have hne : c ≠ '{' ∧ c ≠ '}' := by
    constructor
    · rintro rfl; exact hopen hc
    · rintro rfl; exact hclose hc
  simp [isBrace, hne]

theorem afterClosing?_append {inside : List Char} (hopen : '{' ∉ inside) (hclose : '}' ∉ inside)
    (rest : List Char) : afterClosing? (inside ++ '}' :: rest) = some rest := by
  unfold afterClosing?
  rw [List.dropWhile_append_of_pos (not_isBrace_of_not_mem hopen hclose)]
  rfl

/-- A simple value begins with a quote or a brace, so the blanks before it are skipped. -/
theorem afterEquals?_text {value : Value} (h : value.IsSimple) (rest : List Char) :
    afterEquals? ([' ', '=', ' '] ++ (value.text ++ rest)) = some (value.text ++ rest) := by
  obtain ⟨c, cs, hvalue, hblank⟩ : ∃ c cs, value.text = c :: cs ∧ isBlank c = false := by
    cases value with
    | literal content => exact ⟨'\'', _, rfl, by decide⟩
    | list contents => exact ⟨'{', _, rfl, by decide⟩
    | reference name => exact absurd h id
    | word letters => exact absurd h id
  have hequals : skipBlanks ([' ', '=', ' '] ++ (value.text ++ rest)) =
      '=' :: ([' '] ++ (value.text ++ rest)) :=
    @skipBlanks_append [' '] (by decide) '=' (by decide) ([' '] ++ (value.text ++ rest))
  have hskip : skipBlanks ([' '] ++ (value.text ++ rest)) = value.text ++ rest := by
    rw [hvalue]
    exact skipBlanks_append (by decide) hblank (cs ++ rest)
  unfold afterEquals?
  rw [hequals]
  exact congrArg some hskip

theorem IsSimpleContent.quote_not_mem {content : List Char} (h : IsSimpleContent content) :
    '\'' ∉ content :=
  fun hmem => h _ hmem (by decide)

/-- A reader of values reads a simple value. -/
theorem afterValue?_text {value : Value} (h : value.IsSimple) (rest : List Char) :
    afterValue? (value.text ++ rest) = some rest := by
  cases value with
  | literal content =>
    have hquote : '\'' ∉ content := IsSimpleContent.quote_not_mem h
    have hsplit : Value.text (.literal content) ++ rest = '\'' :: (content ++ '\'' :: rest) := by
      simp [Value.text, literalText]
    rw [hsplit]
    show (upTo? '\'' (content ++ '\'' :: rest)).map (·.2) = some rest
    rw [upTo?_append_cons hquote]
    rfl
  | list contents =>
    have hsplit : Value.text (.list contents) ++ rest =
        '{' :: (listInside contents ++ '}' :: rest) := by
      rw [listText_eq]
      simp
    rw [hsplit]
    exact afterClosing?_append (brace_not_mem_listInside h (.inl rfl))
      (brace_not_mem_listInside h (.inr rfl)) rest
  | reference name => exact absurd h id
  | word letters => exact absurd h id

/-! ## The unity field -/

theorem unityField_eq : ({} : Settings).unityField.toList = '.' :: "CompilerInputUnity".toList := by
  decide

/-- The reader of the unity field takes whole fields of a row in which the text of the unity field is
the full name of a field wherever it stands. -/
theorem cutsFields_unity {items : List RowItem}
    (h : ∀ item ∈ items, item.field.name = "CompilerInputUnity".toList ∨
      occursIn ({} : Settings).unityField.toList item.field.text = false) :
    CutsFields (afterUnityField? ({} : Settings).unityField.toList)
      ({} : Settings).unityField.toList items := by
  constructor
  · intro c cs hc
    unfold afterUnityField?
    rw [unityField_eq, afterFront?, if_neg (Ne.symm hc)]
    rfl
  · intro item hitem hmentioned rest hrest
    obtain hname | hnone := h item hitem
    · have htext : item.text ++ rest = ({} : Settings).unityField.toList ++ ([' ', '=', ' '] ++
          (item.field.value.text ++ (item.separator.text ++ rest))) := by
        rw [unityField_eq, RowItem.text, Field.text, fieldText, hname]
        simp
      unfold afterUnityField?
      rw [htext, afterFront?_append, Option.bind_some, afterEquals?_text item.field.simple,
        Option.bind_some, afterValue?_text item.field.simple, Option.map_some,
        afterSeparator_append _ hrest]
    · rw [hnone] at hmentioned
      cases hmentioned
  · intro item hitem hmentioned rest
    -- An item ends with a blank, and the text of the unity field holds neither a blank nor a
    -- semicolon: what begins in the item ends in its field.
    obtain ⟨front, hfront, hnone⟩ : ∃ front, item.text = front ++ [' '] ∧
        occursIn ({} : Settings).unityField.toList front = false := by
      cases hsep : item.separator with
      | semicolon =>
        refine ⟨item.field.text ++ [';'], by simp [RowItem.text, hsep, Separator.text], ?_⟩
        rw [occursIn_append_cons (by decide), hmentioned]
        decide
      | blank => exact ⟨item.field.text, by simp [RowItem.text, hsep, Separator.text], hmentioned⟩
    refine cutFrom_append_of_eq_none fun suffix hsuffix hne => ?_
    rw [hfront, List.suffix_concat_iff] at hsuffix
    obtain ⟨begun, rfl, hbegun⟩ := hsuffix.resolve_left hne
    unfold afterUnityField?
    have hbegins : ¬ ({} : Settings).unityField.toList <+: begun := by
      intro hstarts
      have hoccurs := occursIn_iff.2 (hstarts.isInfix.trans hbegun.isInfix)
      rw [hnone] at hoccurs
      cases hoccurs
    rw [List.append_assoc, List.singleton_append, afterFront?_append_cons (by decide) hbegins]
    rfl

/-! ## Copy steps -/

theorem copyStepMarker_eq : ({} : Settings).copyStepMarker.toList = '\'' :: "Copy_".toList := by
  decide

/-- A quote or the brace that opens a list. -/
def opensValue (c : Char) : Bool :=
  c == '\'' || c == '{'

/-- Neither a word nor a blank opens a value. -/
theorem opensValue_eq_false {c : Char} (h : isWord c = true ∨ isBlank c = true) :
    opensValue c = false := by
  cases hopens : opensValue c with
  | false => rfl
  | true =>
    simp only [opensValue, Bool.or_eq_true, beq_iff_eq] at hopens
    rcases hopens with rfl | rfl <;> revert h <;> decide

theorem eq_append_of_afterWord? {cs rest : List Char} (h : afterWord? cs = some rest) :
    ∃ word, (∀ c ∈ word, isWord c = true) ∧ cs = word ++ rest := by
  unfold afterWord? at h
  split at h
  · cases h
  · rw [Option.some.injEq] at h
    exact ⟨cs.takeWhile isWord, List.all_eq_true.1 List.all_takeWhile,
      h ▸ List.takeWhile_append_dropWhile.symm⟩

theorem eq_append_of_afterEquals? {cs rest : List Char} (h : afterEquals? cs = some rest) :
    ∃ ws ws', (∀ c ∈ ws, isBlank c = true) ∧ (∀ c ∈ ws', isBlank c = true) ∧
      cs = ws ++ '=' :: (ws' ++ rest) := by
  unfold afterEquals? at h
  rw [Option.map_eq_some_iff] at h
  obtain ⟨behind, hequals, hrest⟩ := h
  rw [afterFront?_eq_some_iff] at hequals
  obtain ⟨ws, hws, hbefore⟩ := exists_blanks_append_skipBlanks cs
  obtain ⟨ws', hws', hafter⟩ := exists_blanks_append_skipBlanks behind
  refine ⟨ws, ws', hws, hws', ?_⟩
  rw [hbefore, hequals, hafter, hrest]
  simp

/-- A value that is taken begins with a quote or a brace; a quote is that of the marker. -/
theorem eq_cons_of_afterCopyStep? {letters cs rest : List Char}
    (h : afterCopyStep? ('\'' :: letters) cs = some rest) :
    ∃ c back, cs = c :: back ∧ opensValue c = true ∧ (c = '\'' → letters <+: back) := by
  unfold afterCopyStep? at h
  split at h
  · rename_i hlist
    rw [Option.bind_eq_some_iff] at hlist
    obtain ⟨inside, hbrace, -⟩ := hlist
    rw [afterFront?_eq_some_iff] at hbrace
    exact ⟨'{', inside, hbrace, by decide, fun hquote => absurd hquote (by decide)⟩
  · rw [Option.bind_eq_some_iff] at h
    obtain ⟨behind, hmarker, -⟩ := h
    rw [afterFront?_eq_some_iff] at hmarker
    exact ⟨'\'', letters ++ behind, hmarker, by decide, fun _ => List.prefix_append letters behind⟩

/-- A reader of copy steps goes on through a name and an equals sign to the first quote or brace, and
takes a quote only where the marker stands. -/
theorem afterCopyStepField?_cases {letters text rest : List Char}
    (h : afterCopyStepField? ('\'' :: letters) text = some rest) :
    ∃ front c back, text = front ++ c :: back ∧ (∀ d ∈ front, opensValue d = false) ∧
      opensValue c = true ∧ (c = '\'' → letters <+: back) := by
  simp only [afterCopyStepField?, Option.map_eq_some_iff, Option.bind_eq_some_iff] at h
  obtain ⟨_, ⟨value, ⟨equals, ⟨name, hpoint, hname⟩, hequals⟩, hcopy⟩, -⟩ := h
  rw [afterFront?_eq_some_iff] at hpoint
  obtain ⟨word, hword, rfl⟩ := eq_append_of_afterWord? hname
  obtain ⟨ws, ws', hws, hws', rfl⟩ := eq_append_of_afterEquals? hequals
  obtain ⟨c, back, rfl, hc, hquote⟩ := eq_cons_of_afterCopyStep? hcopy
  refine ⟨'.' :: (word ++ (ws ++ '=' :: ws')), c, back, by rw [hpoint]; simp, ?_, hc, hquote⟩
  simp only [List.mem_cons, List.mem_append]
  rintro d (rfl | hd | hd | rfl | hd)
  · decide
  · exact opensValue_eq_false (.inl (hword d hd))
  · exact opensValue_eq_false (.inr (hws d hd))
  · decide
  · exact opensValue_eq_false (.inr (hws' d hd))

/-- From inside a literal a reader of copy steps comes to the quote that closes it, and stops there
unless the marker goes on. -/
theorem afterCopyStepField?_literal {letters content after : List Char}
    (hcontent : ∀ c ∈ content, opensValue c = false) (hafter : ¬ letters <+: after) :
    afterCopyStepField? ('\'' :: letters) (content ++ '\'' :: after) = none := by
  rw [Option.eq_none_iff_forall_ne_some]
  intro rest h
  obtain ⟨front, c, back, htext, hfront, hc, hquote⟩ := afterCopyStepField?_cases h
  obtain ⟨-, hclosing, rfl⟩ := append_cons_inj htext hcontent hfront (by decide) hc
  exact hafter (hquote hclosing.symm)

/-- A reader that is tried at several places and takes the same wherever it takes something. -/
theorem findSome?_of_eq_ite {α β : Type} {f : α → Option β} {p : α → Bool} {b : β} {places : List α}
    (h : ∀ a ∈ places, f a = if p a then some b else none) :
    places.findSome? f = if places.any p then some b else none := by
  induction places with
  | nil => rfl
  | cons a places ih =>
    have hrest := ih fun other hother => h other (List.mem_cons_of_mem a hother)
    rw [List.findSome?_cons, h a List.mem_cons_self, hrest, List.any_cons]
    cases p a <;> rfl

/-- A text occurs in another exactly when it begins at some place of it. -/
theorem any_isPrefixOf_drop (needle text : List Char) :
    ((List.range (text.length + 1)).reverse.any fun n => needle.isPrefixOf (text.drop n)) =
      occursIn needle text := by
  rw [Bool.eq_iff_iff, List.any_eq_true, occursIn_iff]
  constructor
  · rintro ⟨n, -, hbegins⟩
    exact (List.isPrefixOf_iff_prefix.1 hbegins).isInfix.trans (List.drop_suffix n text).isInfix
  · rintro ⟨front, back, rfl⟩
    refine ⟨front.length, ?_, ?_⟩
    · simp only [List.mem_reverse, List.mem_range, List.length_append]
      omega
    · rw [List.append_assoc, List.drop_left, List.isPrefixOf_iff_prefix]
      exact List.prefix_append needle back

/-- From a place inside a list the reader takes the list when the marker begins there. -/
theorem afterMarker?_append {marker inside : List Char} (hopen : '{' ∉ inside)
    (hclose : '}' ∉ inside) (hmarker : '}' ∉ marker) (rest : List Char) :
    (afterFront? marker (inside ++ '}' :: rest)).bind afterClosing? =
      if marker.isPrefixOf inside then some rest else none := by
  by_cases hbegins : marker.isPrefixOf inside = true
  · obtain ⟨back, rfl⟩ := List.isPrefixOf_iff_prefix.1 hbegins
    rw [if_pos hbegins, List.append_assoc, afterFront?_append, Option.bind_some]
    exact afterClosing?_append (fun hmem => hopen (List.mem_append_right marker hmem))
      (fun hmem => hclose (List.mem_append_right marker hmem)) rest
  · rw [if_neg hbegins, afterFront?_append_cons hmarker (mt List.isPrefixOf_iff_prefix.2 hbegins)]
    rfl

/-- A list is taken exactly when it holds the marker. -/
theorem afterMarkedList?_append {marker inside : List Char} (hopen : '{' ∉ inside)
    (hclose : '}' ∉ inside) (hmarker : '}' ∉ marker) (rest : List Char) :
    afterMarkedList? marker (inside ++ '}' :: rest) =
      if occursIn marker inside then some rest else none := by
  have hlength : ((inside ++ '}' :: rest).takeWhile fun c => !isBrace c).length = inside.length := by
    rw [List.takeWhile_append_of_pos (not_isBrace_of_not_mem hopen hclose)]
    simp [isBrace]
  unfold afterMarkedList?
  simp only [hlength]
  rw [← any_isPrefixOf_drop]
  refine findSome?_of_eq_ite fun n hn => ?_
  rw [List.mem_reverse, List.mem_range] at hn
  have hsub := (List.drop_suffix n inside).subset
  rw [List.drop_append_of_le_length (by omega)]
  exact afterMarker?_append (fun hmem => hopen (hsub hmem)) (fun hmem => hclose (hsub hmem)) hmarker
    rest

/-- A literal is taken exactly when the marker stands in it: the marker begins with a quote, so only the
first quote can begin it. -/
theorem afterCopyStep?_literal {content : List Char} (h : IsSimpleContent content)
    (rest : List Char) :
    afterCopyStep? ('\'' :: "Copy_".toList) (literalText content ++ rest) =
      if occursIn ('\'' :: "Copy_".toList) (literalText content) then some rest else none := by
  have hquote : '\'' ∉ content := IsSimpleContent.quote_not_mem h
  have hsplit : literalText content ++ rest = '\'' :: (content ++ '\'' :: rest) := by
    simp [literalText]
  have hoccurs : occursIn ('\'' :: "Copy_".toList) (literalText content) =
      "Copy_".toList.isPrefixOf content := by
    show ("Copy_".toList.isPrefixOf (content ++ '\'' :: []) ||
      occursIn ('\'' :: "Copy_".toList) (content ++ ['\''])) = _
    rw [@isPrefixOf_append_cons '\'' "Copy_".toList (by decide),
      occursIn_append_of_not_mem hquote]
    have hend : occursIn ('\'' :: "Copy_".toList) ['\''] = false := by decide
    rw [hend, Bool.or_false]
  have hread : afterFront? ('\'' :: "Copy_".toList) ('\'' :: (content ++ '\'' :: rest)) =
      afterFront? "Copy_".toList (content ++ '\'' :: rest) := by
    rw [afterFront?, if_pos rfl]
  unfold afterCopyStep?
  rw [hoccurs, hsplit, hread]
  show ((afterFront? "Copy_".toList (content ++ '\'' :: rest)).bind fun rest =>
    (upTo? '\'' rest).map (·.2)) = _
  by_cases hbegins : "Copy_".toList.isPrefixOf content = true
  · obtain ⟨back, rfl⟩ := List.isPrefixOf_iff_prefix.1 hbegins
    have hback : '\'' ∉ back := fun hmem => hquote (List.mem_append_right _ hmem)
    rw [if_pos hbegins, List.append_assoc, afterFront?_append, Option.bind_some,
      upTo?_append_cons hback]
    rfl
  · rw [if_neg hbegins,
      afterFront?_append_cons (by decide) (mt List.isPrefixOf_iff_prefix.2 hbegins)]
    rfl

/-- A list of literals is taken exactly when the marker stands in it. -/
theorem afterCopyStep?_list {contents : List (List Char)}
    (h : ∀ content ∈ contents, IsSimpleContent content) (rest : List Char) :
    afterCopyStep? ('\'' :: "Copy_".toList) (Value.text (.list contents) ++ rest) =
      if occursIn ('\'' :: "Copy_".toList) (Value.text (.list contents)) then some rest
      else none := by
  have hopen := brace_not_mem_listInside h (.inl rfl)
  have hclose := brace_not_mem_listInside h (.inr rfl)
  have hsplit : Value.text (.list contents) ++ rest =
      '{' :: (listInside contents ++ '}' :: rest) := by
    rw [listText_eq]
    simp
  have hoccurs : occursIn ('\'' :: "Copy_".toList) (Value.text (.list contents)) =
      occursIn ('\'' :: "Copy_".toList) (listInside contents) := by
    have hfront := @occursIn_append_of_not_mem '\'' "Copy_".toList ['{'] (by decide)
      (listInside contents ++ '}' :: [])
    have hback := @occursIn_append_cons '}' ('\'' :: "Copy_".toList) (by decide)
      (listInside contents) []
    rw [listText_eq]
    exact hfront.trans (hback.trans (Bool.or_false _))
  have hbrace : afterFront? ['{'] ('{' :: (listInside contents ++ '}' :: rest)) =
      some (listInside contents ++ '}' :: rest) := rfl
  unfold afterCopyStep?
  rw [hoccurs, hsplit, hbrace, Option.bind_some,
    afterMarkedList?_append hopen hclose (by decide)]
  cases occursIn ('\'' :: "Copy_".toList) (listInside contents) <;> rfl

/-- The reader of copy steps takes a simple value exactly when its text mentions a copy step. -/
theorem afterCopyStep?_text {value : Value} (h : value.IsSimple) (rest : List Char) :
    afterCopyStep? ({} : Settings).copyStepMarker.toList (value.text ++ rest) =
      if occursIn ({} : Settings).copyStepMarker.toList value.text then some rest else none := by
  rw [copyStepMarker_eq]
  cases value with
  | literal content => exact afterCopyStep?_literal h rest
  | list contents => exact afterCopyStep?_list h rest
  | reference name => exact absurd h id
  | word letters => exact absurd h id

/-- The reader of copy steps takes a simple field exactly when its text mentions a copy step. -/
theorem afterCopyStepField?_field (field : SimpleField) (rest : List Char) :
    afterCopyStepField? ({} : Settings).copyStepMarker.toList (field.text ++ rest) =
      if occursIn ({} : Settings).copyStepMarker.toList field.text then some (afterSeparator rest)
      else none := by
  have hsplit : field.text ++ rest =
      '.' :: (field.name ++ ([' ', '=', ' '] ++ (field.value.text ++ rest))) := by
    simp [Field.text, fieldText]
  have hpoint : ∀ cs : List Char, afterFront? ['.'] ('.' :: cs) = some cs := fun _ => rfl
  have hword : afterWord? (field.name ++ ([' ', '=', ' '] ++ (field.value.text ++ rest))) =
      some ([' ', '=', ' '] ++ (field.value.text ++ rest)) := by
    have htake : ((field.name ++ ([' ', '=', ' '] ++ (field.value.text ++ rest))).takeWhile
        isWord).isEmpty = false := by
      rw [List.takeWhile_append_of_pos field.word]
      simp [field.ne_nil]
    unfold afterWord?
    rw [htake, List.dropWhile_append_of_pos field.word]
    rfl
  -- The marker begins with a quote, and before the value there is none.
  have hoccurs : occursIn ({} : Settings).copyStepMarker.toList field.text =
      occursIn ({} : Settings).copyStepMarker.toList field.value.text := by
    have hfront : '\'' ∉ '.' :: (field.name ++ [' ', '=', ' ']) := by
      simp [not_mem_of_isWord field.word (c := '\'') (by decide)]
    have htext : field.text = ('.' :: (field.name ++ [' ', '=', ' '])) ++ field.value.text := by
      simp [Field.text, fieldText]
    rw [copyStepMarker_eq, htext, occursIn_append_of_not_mem hfront]
  unfold afterCopyStepField?
  rw [hsplit, hpoint, Option.bind_some, hword, Option.bind_some, afterEquals?_text field.simple,
    Option.bind_some, afterCopyStep?_text field.simple, hoccurs]
  cases occursIn ({} : Settings).copyStepMarker.toList field.value.text <;> rfl

theorem afterCopyStepField?_of_ne_point {c : Char} (h : c ≠ '.') (cs : List Char) :
    afterCopyStepField? ({} : Settings).copyStepMarker.toList (c :: cs) = none := by
  unfold afterCopyStepField?
  rw [afterFront?, if_neg (Ne.symm h)]
  rfl

/-- The reader of copy steps passes over a literal, unless what follows it makes its closing quote
begin the marker. -/
theorem cutFrom_copyStep_literal {content after : List Char} (h : IsSimpleContent content)
    (hafter : ¬ "Copy_".toList <+: after) :
    cutFrom (afterCopyStepField? ({} : Settings).copyStepMarker.toList) 0
        (literalText content ++ after) =
      literalText content ++
        cutFrom (afterCopyStepField? ({} : Settings).copyStepMarker.toList) 0 after := by
  refine cutFrom_append_of_eq_none fun suffix hsuffix hne => ?_
  have hliteral : literalText content = ('\'' :: content) ++ ['\''] := rfl
  rw [hliteral, List.suffix_concat_iff] at hsuffix
  obtain ⟨begun, rfl, hbegun⟩ := hsuffix.resolve_left hne
  rw [List.append_assoc, List.singleton_append]
  rcases List.suffix_cons_iff.1 hbegun with rfl | hbegun
  · exact afterCopyStepField?_of_ne_point (by decide) _
  · rw [copyStepMarker_eq]
    refine afterCopyStepField?_literal (fun c hc => ?_) hafter
    have hmarks := h c (hbegun.subset hc)
    simp only [List.mem_cons, not_or] at hmarks
    simp [opensValue, hmarks]

theorem cutFrom_copyStep_items {contents : List (List Char)} {after : List Char}
    (h : ∀ content ∈ contents, IsSimpleContent content) (hafter : ¬ "Copy_".toList <+: after) :
    cutFrom (afterCopyStepField? ({} : Settings).copyStepMarker.toList) 0
        (itemsText contents ++ after) =
      itemsText contents ++
        cutFrom (afterCopyStepField? ({} : Settings).copyStepMarker.toList) 0 after := by
  induction contents with
  | nil => rfl
  | cons content contents ih =>
    have hfirst := h content List.mem_cons_self
    have hrest := ih fun other hother => h other (List.mem_cons_of_mem content hother)
    cases contents with
    | nil => exact cutFrom_copyStep_literal hfirst hafter
    | cons next contents =>
      have hcomma : ¬ "Copy_".toList <+: [',', ' '] ++ (itemsText (next :: contents) ++ after) := by
        rintro ⟨back, hback⟩
        revert hback
        simp
      have hsplit : itemsText (content :: next :: contents) ++ after =
          literalText content ++ ([',', ' '] ++ (itemsText (next :: contents) ++ after)) := by
        simp [itemsText]
      rw [hsplit, cutFrom_copyStep_literal hfirst hcomma,
        cutFrom_append_of_not_mem (fun c cs hc => afterCopyStepField?_of_ne_point hc cs) (by decide),
        hrest]
      simp [itemsText]

/-- The reader of copy steps passes over a value whose list it does not take. -/
theorem cutFrom_copyStep_value {value : Value} {after : List Char} (h : value.IsSimple)
    (hafter : ¬ "Copy_".toList <+: after) :
    cutFrom (afterCopyStepField? ({} : Settings).copyStepMarker.toList) 0 (value.text ++ after) =
      value.text ++
        cutFrom (afterCopyStepField? ({} : Settings).copyStepMarker.toList) 0 after := by
  cases value with
  | literal content => exact cutFrom_copyStep_literal h hafter
  | list contents =>
    have hclose : ¬ "Copy_".toList <+: [' ', '}'] ++ after := by
      rintro ⟨back, hback⟩
      revert hback
      simp
    have hsplit : Value.text (.list contents) ++ after =
        ['{', ' '] ++ (itemsText contents ++ ([' ', '}'] ++ after)) := by
      simp [Value.text]
    have hpoint := fun c cs (hc : c ≠ '.') => afterCopyStepField?_of_ne_point hc cs
    rw [hsplit, cutFrom_append_of_not_mem hpoint (by decide), cutFrom_copyStep_items h hclose,
      cutFrom_append_of_not_mem hpoint (by decide)]
    simp [Value.text]
  | reference name => exact absurd h id
  | word letters => exact absurd h id

/-- The reader of copy steps takes whole fields of a row. -/
theorem cutsFields_copyStep (items : List RowItem) :
    CutsFields (afterCopyStepField? ({} : Settings).copyStepMarker.toList)
      ({} : Settings).copyStepMarker.toList items := by
  have hpoint := fun c cs (hc : c ≠ '.') => afterCopyStepField?_of_ne_point hc cs
  refine ⟨hpoint, fun item _ hmentioned rest hrest => ?_, fun item _ hmentioned rest => ?_⟩
  · rw [RowItem.text, List.append_assoc, afterCopyStepField?_field, if_pos hmentioned,
      afterSeparator_append _ hrest]
  · have hseparator : ¬ "Copy_".toList <+: item.separator.text ++ rest := by
      rintro ⟨back, hback⟩
      revert hback
      cases item.separator <;> simp [Separator.text]
    have hsplit : item.text ++ rest = ['.'] ++ ((item.field.name ++ [' ', '=', ' ']) ++
        (item.field.value.text ++ (item.separator.text ++ rest))) := by
      simp [RowItem.text, Field.text, fieldText]
    have hname : '.' ∉ item.field.name ++ [' ', '=', ' '] := by
      simp [not_mem_of_isWord item.field.word (c := '.') (by decide)]
    have hlast : '.' ∉ item.separator.text := by cases item.separator <;> decide
    -- At the field itself the reader takes nothing, since the value mentions no copy step.
    have hfirst : ∀ suffix, suffix <:+ ['.'] → suffix ≠ [] →
        afterCopyStepField? ({} : Settings).copyStepMarker.toList
          (suffix ++ ((item.field.name ++ [' ', '=', ' ']) ++
            (item.field.value.text ++ (item.separator.text ++ rest)))) = none := by
      intro suffix hsuffix hne
      obtain rfl : suffix = ['.'] := by
        rcases List.suffix_cons_iff.1 hsuffix with rfl | hnil
        · rfl
        · exact absurd (List.suffix_nil.1 hnil) hne
      rw [← hsplit, RowItem.text, List.append_assoc, afterCopyStepField?_field, hmentioned]
      rfl
    rw [hsplit, cutFrom_append_of_eq_none hfirst, cutFrom_append_of_not_mem hpoint hname,
      cutFrom_copyStep_value item.field.simple hseparator, cutFrom_append_of_not_mem hpoint hlast]
    simp [RowItem.text, Field.text, fieldText]

/-! ## The row that is left -/

/-- The fields that are cut out of a row are those that mention the unity field or a copy step. -/
theorem cutInlineFields_row {items : List RowItem}
    (h : ∀ item ∈ items, item.field.name = "CompilerInputUnity".toList ∨
      occursIn ({} : Settings).unityField.toList item.field.text = false) :
    cutInlineFields ({} : Settings).unityField.toList ({} : Settings).copyStepMarker.toList
        ([' ', '{', ' '] ++ (rowText items ++ ['}'])) =
      [' ', '{', ' '] ++
        (rowText (items.filter fun item => !isDropped {} item.field.text) ++ ['}']) := by
  have hunity := cutsFields_unity h
  have hcopy := cutsFields_copyStep
    (items.filter fun item => !occursIn ({} : Settings).unityField.toList item.field.text)
  unfold cutInlineFields
  rw [cutFrom_append_of_not_mem hunity.point (by decide), hunity.cutFrom_row,
    cutFrom_append_of_not_mem hcopy.point (by decide), hcopy.cutFrom_row, List.filter_filter]
  congr 4
  funext item
  rw [isDropped, Bool.not_or, Bool.and_comm]

end SoloBuild.SingleFile
