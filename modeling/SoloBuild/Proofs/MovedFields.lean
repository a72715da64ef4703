import SoloBuild.Proofs.OneLineDeclaration
import SoloBuild.Proofs.PurgeAgreement
import SoloBuild.Proofs.SurvivingReferences

/-!
# Which fields are moved

The fields that hold intermediate directories are to gain the segment of single-file output, and no
others. But it is decided for a line as a whole: when anything on the line mentions intermediate
output, a comment or another field, every segment of the line is extended. So a field that shares
its line with such a mention is moved although it is none of them, and a field on a line without one
only loses its placeholders.

## Key results

- `exists_count_replaceAll`: how often a text is replaced
- `moveText_true_eq_iff`: the change is seen on exactly the texts with a segment
- `StandsAlone.moveText_around`: a field is changed by itself
- `text_ofNode_field`: the text of a target around a field, and when the field is moved
-/

namespace SoloBuild.Text

/-- Over the occurrences that are replaced, from the left. -/
theorem replaceAll_induction (c : Char) (old : List Char) {motive : List Char → Prop}
    (nil : motive [])
    (starts : ∀ rest, motive rest → motive ((c :: old) ++ rest))
    (goesOn : ∀ x xs, ¬ (c :: old) <+: x :: xs → motive xs → motive (x :: xs))
    (text : List Char) : motive text := by
  have hlength : ∀ (n : Nat) (text : List Char), text.length ≤ n → motive text := by
    intro n
    induction n with
    | zero =>
      intro text htext
      rwa [List.eq_nil_of_length_eq_zero (Nat.le_zero.1 htext)]
    | succ n ih =>
      intro text htext
      by_cases hstarts : (c :: old) <+: text
      · obtain ⟨rest, rfl⟩ := hstarts
        rw [List.length_append, List.length_cons] at htext
        exact starts rest (ih rest (by omega))
      · cases text with
        | nil => exact nil
        | cons x xs => exact goesOn x xs hstarts (ih xs (Nat.le_of_succ_le_succ htext))
  exact hlength text.length text (Nat.le_refl _)

/-- How often a text is replaced: never exactly where it does not occur, and a character that it
lacks is counted as before, and as often again as each new text brings it in. -/
theorem exists_count_replaceAll {q c : Char} {old : List Char} (hq : q ∉ c :: old)
    (new text : List Char) :
    ∃ n, (replaceAll (c :: old) new text).count q = text.count q + n * new.count q ∧
      (n = 0 ↔ occursIn (c :: old) text = false) := by
  induction text using replaceAll_induction c old with
  | nil => exact ⟨0, by simp [replaceAll, replaceFrom], by simp [occursIn]⟩
  | starts rest ih =>
    obtain ⟨n, hcount, -⟩ := ih
    have hoccurs : occursIn (c :: old) ((c :: old) ++ rest) = true :=
      occursIn_iff.2 (List.prefix_append (c :: old) rest).isInfix
    refine ⟨n + 1, ?_, by rw [hoccurs]; simp⟩
    rw [replaceAll_append_self, List.count_append, List.count_append, hcount,
      List.count_eq_zero.2 hq, Nat.succ_mul]
    omega
  | goesOn x xs hstarts ih =>
    obtain ⟨n, hcount, hnone⟩ := ih
    have hfront : (c :: old).isPrefixOf (x :: xs) = false :=
      Bool.eq_false_iff.2 (mt List.isPrefixOf_iff_prefix.1 hstarts)
    refine ⟨n, ?_, by rw [occursIn, hfront, Bool.false_or, hnone]⟩
    rw [replaceAll_cons_of_not_starts hstarts, List.count_cons, List.count_cons, hcount]
    omega

end SoloBuild.Text

namespace SoloBuild.SingleFile

open Text Description

/-! ## What a change shows -/

/-- Extending the segments of a text is seen where it has one: the name that it brings in is not
removed with the placeholders. -/
theorem moveText_true_eq_iff {text : List Char} :
    moveText true text = removePlaceholders text ↔ occursIn "\\int\\".toList text = false := by
  constructor
  · intro hsame
    -- Neither the segment nor the placeholder holds a g, but the name of the target does.
    have hsegment : 'g' ∉ '\\' :: "int\\".toList := by decide
    have hplaceholder : 'g' ∉ '\\' :: "$_CURRENT_BFF_DIR_$".toList := by decide
    obtain ⟨n, hextend, hnone⟩ :=
      exists_count_replaceAll hsegment "\\int\\CompileSingleFile\\".toList text
    have hremove : ∀ text : List Char, (removePlaceholders text).count 'g' = text.count 'g' := by
      intro text
      obtain ⟨m, hcount, -⟩ := exists_count_replaceAll hplaceholder [] text
      rw [removePlaceholders, placeholder_eq, hcount]
      rfl
    have hcount := congrArg (List.count 'g') hsame
    rw [moveText_eq, if_pos rfl, hremove, hremove, extendSegments, segment_eq, hextend] at hcount
    have hname : "\\int\\CompileSingleFile\\".toList.count 'g' = 1 := by decide
    rw [hname] at hcount
    exact segment_eq ▸ hnone.1 (by omega)
  · intro hnone
    rw [moveText_eq, if_pos rfl, extendSegments, replaceAll_of_not_occursIn _ hnone]

/-! ## Fields that are changed by themselves -/

/-- The characters of the segment and the placeholder, which a change may take part in. -/
def changedChars : List Char :=
  "\\int\\".toList ++ "\\$_CURRENT_BFF_DIR_$".toList

/-- The text opens with a point, and its last character is no blank; that is part of neither the
segment nor the placeholder, or there is nothing to change in the text. So it is changed by itself,
whatever stands around it. -/
structure StandsAlone (text : List Char) : Prop where
  opens : ∃ rest, text = '.' :: rest
  closes : ∃ front c, text = front ++ [c] ∧ isBlank c = false ∧
    (c ∉ changedChars ∨ '\\' ∉ text)

theorem exists_concat_of_trimEnd {text : List Char} (h : trimEnd text = text) (hne : text ≠ []) :
    ∃ front c, text = front ++ [c] ∧ isBlank c = false := by
  rcases List.eq_nil_or_concat text with rfl | ⟨front, c, rfl⟩
  · exact absurd rfl hne
  · refine ⟨front, c, List.concat_eq_append, Bool.eq_false_iff.2 fun hblank => ?_⟩
    rw [List.concat_eq_append, trimEnd_append_blanks front [c] (by simpa using hblank)] at h
    -- Cutting the blanks at the end of the front would leave more than the front.
    have hlength := congrArg List.length (trimEnd_append_rest front)
    rw [h] at hlength
    simp at hlength

/-- A plain field is changed by itself: it ends with a quote or a brace, or holds no backslash. -/
theorem StandsAlone.of_isPlain {field : Field} (h : field.IsPlain) : StandsAlone field.text := by
  have htext : field.text = ('.' :: (field.name ++ [' ', '=', ' '])) ++ field.value.text := by
    simp [Field.text, fieldText]
  obtain ⟨htrim, hne⟩ := Field.trimEnd_text h
  obtain ⟨front, c, hconcat, hblank⟩ := exists_concat_of_trimEnd htrim hne
  refine ⟨⟨_, by rw [htext, List.cons_append]⟩, front, c, hconcat, hblank, ?_⟩
  -- A literal and a list end with a mark of their own; other values hold nothing to change.
  have hmark : ∀ inner mark, field.value.text = inner ++ [mark] → c = mark := by
    intro inner mark hvalue
    rw [htext, hvalue, ← List.append_assoc] at hconcat
    exact List.singleton_inj.1 (List.append_inj' hconcat rfl).2.symm
  have hplain : '\\' ∉ field.value.text → '\\' ∉ field.text := by
    intro hbackslash
    rw [htext, List.mem_append, not_or]
    exact ⟨by simp [backslash_not_mem_of_isWord h.1], hbackslash⟩
  have hvalue := h.2
  cases hcase : field.value with
  | literal content =>
    rw [hmark ('\'' :: content) '\'' (by rw [hcase]; rfl)]
    exact .inl (by decide)
  | list contents =>
    rw [hmark (['{', ' '] ++ itemsText contents ++ [' ']) '}' (by simp [hcase, Value.text])]
    exact .inl (by decide)
  | reference name =>
    rw [hcase] at hplain hvalue
    exact .inr (hplain (by simp [Value.text, backslash_not_mem_of_isWord hvalue]))
  | word letters =>
    rw [hcase] at hplain hvalue
    exact .inr (hplain (backslash_not_mem_of_isWord hvalue.1))

/-- A character that is never changed separates what is. -/
theorem moveText_append_cons_of_not_mem {c : Char} (h : c ∉ changedChars) (moved : Bool)
    (front after : List Char) :
    moveText moved (front ++ c :: after) = moveText moved front ++ c :: moveText moved after := by
  have hparts : c ∉ "\\int\\".toList ++ "\\$_CURRENT_BFF_DIR_$".toList := h
  rw [List.mem_append, not_or] at hparts
  exact moveText_append_cons (segment_eq ▸ hparts.1) (placeholder_eq ▸ hparts.2) moved front after

theorem moveText_concat {c : Char} (h : c ∉ changedChars) (moved : Bool) (front : List Char) :
    moveText moved (front ++ [c]) = moveText moved front ++ [c] := by
  rw [moveText_append_cons_of_not_mem h, moveText_of_not_mem List.not_mem_nil]

namespace StandsAlone

variable {text : List Char}

/-- What is left of a text that stands alone ends with no blank. -/
theorem exists_moveText_eq (h : StandsAlone text) (moved : Bool) :
    ∃ front c, moveText moved text = front ++ [c] ∧ isBlank c = false := by
  obtain ⟨front, c, htext, hblank, hc | hplain⟩ := h.closes
  · exact ⟨_, c, by rw [htext, moveText_concat hc], hblank⟩
  · exact ⟨front, c, by rw [moveText_of_not_mem hplain, htext], hblank⟩

/-- A text that stands alone is changed by itself. -/
theorem moveText_around (h : StandsAlone text) (moved : Bool) (before after : List Char) :
    moveText moved (before ++ (text ++ after)) =
      moveText moved before ++ (moveText moved text ++ moveText moved after) := by
  have hafter : moveText moved (text ++ after) = moveText moved text ++ moveText moved after := by
    obtain ⟨front, c, htext, -, hc | hplain⟩ := h.closes
    · rw [htext, moveText_concat hc, List.append_assoc, List.singleton_append,
        moveText_append_cons_of_not_mem hc, List.append_assoc, List.singleton_append]
    · rw [moveText_append_of_not_mem hplain, moveText_of_not_mem hplain]
  -- The point in front belongs to no segment and to no placeholder.
  obtain ⟨rest, htext⟩ := h.opens
  have hpoint : moveText moved (text ++ after) = '.' :: moveText moved (rest ++ after) := by
    have hbackslash : '\\' ∉ ['.'] := by decide
    rw [htext]
    exact moveText_append_of_not_mem hbackslash moved (rest ++ after)
  have hbefore : moveText moved (before ++ (text ++ after)) =
      moveText moved before ++ '.' :: moveText moved (rest ++ after) := by
    rw [htext]
    exact moveText_append_cons (by decide) (by decide) moved before (rest ++ after)
  rw [hbefore, ← hpoint, hafter]

end StandsAlone

/-! ## The text of a target around a field -/

/-- The lines of a body that are kept, before intermediate output is moved. -/
def leftLines (node : TargetNode) : List (List Char) :=
  (node.bodyLines.dropLast.filter fun line => !mentionsReference line) ++ (cutLast? node).toList

/-- Fields are added behind a piece that ends with no blank when a brace follows it. -/
theorem insertFields_append_left {piece rest : List Char}
    (hpiece : ∃ front c, piece = front ++ [c] ∧ isBlank c = false) (hrest : '}' ∈ rest)
    (fields : List Char) :
    insertFields fields (piece ++ rest) = piece ++ insertFields fields rest := by
  obtain ⟨front, c, rfl, hc⟩ := hpiece
  -- The last brace of what follows is the last one of the whole.
  obtain ⟨back, inner, hsplit, hback⟩ := List.eq_append_cons_of_mem (List.mem_reverse.2 hrest)
  obtain rfl : rest = inner.reverse ++ '}' :: back.reverse := by
    rw [← List.reverse_reverse rest, hsplit]
    simp
  have hlast : '}' ∉ back.reverse := fun hmem => hback (List.mem_reverse.1 hmem)
  rw [insertFields_append fields _ hlast, ← List.append_assoc, insertFields_append fields _ hlast,
    List.append_assoc front, List.singleton_append, trimEnd_append_cons hc]
  simp

/-- A brace is never changed. -/
theorem brace_mem_moveText {text : List Char} (h : '}' ∈ text) (moved : Bool) :
    '}' ∈ moveText moved text := by
  obtain ⟨front, back, rfl⟩ := List.append_of_mem h
  rw [moveText_append_cons (by decide) (by decide)]
  exact List.mem_append_right _ List.mem_cons_self

theorem brace_mem_relocated {after : List Char} {later : List (List Char)}
    (h : '}' ∈ after ++ later.flatMap ('\n' :: ·)) (moved : Bool) :
    '}' ∈ moveText moved after ++ (later.map (relocate {})).flatMap ('\n' :: ·) := by
  rcases List.mem_append.1 h with hafter | hlater
  · exact List.mem_append_left _ (brace_mem_moveText hafter moved)
  · obtain ⟨line, hline, hbrace⟩ := List.mem_flatMap.1 hlater
    have hrelocate : '}' ∈ relocate {} line := by
      rw [relocate_eq]
      exact brace_mem_moveText ((List.mem_cons.1 hbrace).resolve_left (by decide)) _
    exact List.mem_append_right _ (List.mem_flatMap.2
      ⟨_, List.mem_map_of_mem hline, List.mem_cons_of_mem _ hrelocate⟩)

variable {node : TargetNode} {earlier later : List (List Char)} {before field after : List Char}

/-- The text of a target around a text that stands alone in a kept line. -/
theorem targetText_around (input : Path) (hfield : StandsAlone field)
    (hlines : leftLines node = earlier ++ (before ++ (field ++ after)) :: later)
    (hclose : '}' ∈ after ++ later.flatMap ('\n' :: ·)) {moved : Bool}
    (hmoved : occursIn ".Intermediate".toList (before ++ (field ++ after)) = moved) :
    targetText node input {} =
      linesBefore (earlier.map (relocate {})) ++
        (beforeOnLine (earlier.map (relocate {})) (moveText moved before) ++
          (moveText moved field ++ insertFields (injectedFields (lineBreak node.body) input)
            (moveText moved after ++ (later.map (relocate {})).flatMap ('\n' :: ·)))) := by
  have hkept : keptLines {} node.bodyLines = earlier.map (relocate {}) ++
      (moveText moved before ++ (moveText moved field ++ moveText moved after)) ::
        later.map (relocate {}) := by
    rw [keptLines_eq, ← leftLines, hlines, List.map_append, List.map_cons, relocate_eq, hmoved,
      hfield.moveText_around]
  have hbrace := brace_mem_relocated hclose moved
  -- The header and the field end with no blank, so nothing but what follows the field is cut.
  have hheader : ∃ front c, headerText {} = front ++ [c] ∧ isBlank c = false :=
    ⟨"ObjectList( 'CompileSingleFile' ".toList, ')', by decide⟩
  have hfront : ∃ front c, linesBefore (earlier.map (relocate {})) ++
      (beforeOnLine (earlier.map (relocate {})) (moveText moved before) ++ moveText moved field) =
        front ++ [c] ∧ isBlank c = false := by
    obtain ⟨front, c, hconcat, hblank⟩ := hfield.exists_moveText_eq moved
    exact ⟨_, c, by rw [hconcat, ← List.append_assoc, ← List.append_assoc], hblank⟩
  have hsplit : headerText {} ++ joinLines (keptLines {} node.bodyLines) =
      linesBefore (earlier.map (relocate {})) ++
          (beforeOnLine (earlier.map (relocate {})) (moveText moved before) ++
            moveText moved field) ++
        (moveText moved after ++ (later.map (relocate {})).flatMap ('\n' :: ·)) := by
    rw [hkept, headerText_append_joinLines]
    simp only [List.append_assoc]
  have hbody : '}' ∈ joinLines (keptLines {} node.bodyLines) := by
    have hmem : '}' ∈ headerText {} ++ joinLines (keptLines {} node.bodyLines) :=
      hsplit ▸ List.mem_append_right _ hbrace
    exact (List.mem_append.1 hmem).resolve_left (by decide)
  rw [targetText, ← insertFields_append_left hheader hbody, hsplit,
    insertFields_append_left hfront hbrace]
  simp only [List.append_assoc]

/-- A field that is kept stands in the target between what the rest of its line and the other lines
become, and it is moved with its line: it loses its placeholders and nothing else exactly when its
line does not mention intermediate output, or the field has no segment. -/
theorem text_ofNode_field (input : Path) (hfield : StandsAlone field)
    (hlines : leftLines node = earlier ++ (before ++ (field ++ after)) :: later)
    (hclose : '}' ∈ after ++ later.flatMap ('\n' :: ·)) :
    let moved := occursIn ".Intermediate".toList (before ++ (field ++ after))
    let front := earlier.map (relocate {})
    let back := later.map (relocate {})
    (Target.ofNode node input {}).text.toList =
        linesBefore front ++ (beforeOnLine front (moveText moved before) ++
          (moveText moved field ++ insertFields (injectedFields (lineBreak node.body) input)
            (moveText moved after ++ back.flatMap ('\n' :: ·)))) ∧
      (moveText moved field = removePlaceholders field ↔
        moved = false ∨ occursIn "\\int\\".toList field = false) := by
  intro moved front back
  constructor
  · rw [Target.ofNode, String.toList_ofList]
    exact targetText_around input hfield hlines hclose rfl
  · cases moved with
    | false => exact ⟨fun _ => .inl rfl, fun _ => rfl⟩
    | true => rw [moveText_true_eq_iff]; simp

/-- A library with a field that holds an intermediate directory and, on the same line, one that does
not. -/
def sharedLine : TargetNode :=
  libraryNode "\n\x7b\n.Intermediate='\\int\\X'; .Lib = '\\int\\b'\n\x7d"

/-- The field that does not is moved with its line. -/
theorem text_ofNode_field_sample :
    let output := ".Lib = '\\int\\b'".toList
    leftLines sharedLine = [[], ['{']] ++
        (".Intermediate='\\int\\X'; ".toList ++ (output ++ [])) :: [['}']] ∧
      ∃ front back, (Target.ofNode sharedLine ⟨"a.cpp"⟩ {}).text.toList =
          front ++ (moveText true output ++ back) ∧
        moveText true output ≠ removePlaceholders output := by
  intro output
  have hplain : Field.IsPlain ⟨"Lib".toList, .literal "\\int\\b".toList⟩ := by decide
  have hfield : StandsAlone output := StandsAlone.of_isPlain hplain
  have hlines : leftLines sharedLine = [[], ['{']] ++
      (".Intermediate='\\int\\X'; ".toList ++ (output ++ [])) :: [['}']] := by
    decide +kernel
  obtain ⟨htext, hmoved⟩ := text_ofNode_field ⟨"a.cpp"⟩ hfield hlines (by decide)
  have hmention : occursIn ".Intermediate".toList
      (".Intermediate='\\int\\X'; ".toList ++ (output ++ [])) = true := by
    decide +kernel
  have hsegment : occursIn "\\int\\".toList output = true := by decide
  rw [hmention, ← List.append_assoc] at htext
  rw [hmention, hsegment] at hmoved
  exact ⟨hlines, _, _, htext, by simp [hmoved]⟩

/-- The library is located, and the value of the field that names no intermediate directory is read
with the segment of single-file output. -/
theorem field_moved_with_line :
    Document.locate ⟨⟨"X.bff"⟩, sharedLine.text⟩ "X" TargetKind.all = .ok sharedLine ∧
      separatedFields? sharedLine.text.toList = some
        [⟨"Intermediate".toList, .literal "\\int\\X".toList⟩,
          ⟨"Lib".toList, .literal "\\int\\b".toList⟩] ∧
      separatedFields? (Target.ofNode sharedLine ⟨"a.cpp"⟩ {}).text.toList = some
        (⟨"Intermediate".toList, .literal "\\int\\CompileSingleFile\\X".toList⟩ ::
          ⟨"Lib".toList, .literal "\\int\\CompileSingleFile\\b".toList⟩ ::
            addedFields ⟨"a.cpp"⟩) := by
  simp only [Target.ofNode, String.toList_ofList]
  decide +kernel

end SoloBuild.SingleFile
