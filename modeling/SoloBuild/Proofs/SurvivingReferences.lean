import SoloBuild.Proofs.InlineFields
import SoloBuild.Proofs.PurgeIndependence

/-!
# References that survive

A single-file target is meant to mention neither the unity field nor a copy step. Of the lines before
the last one those that mention either are dropped, whatever they say; out of the last line only the
fields are cut whose values have one of a few shapes. Only then the placeholder of the directory is
removed, and what stood on both sides of it comes together. So a reference can survive in two ways:
on the last line, in a value that the readers do not know, and where a placeholder was.

## Key results

- `alike_extendSegments`: moving intermediate output neither makes nor hides a reference
- `occursIn_around_iff`: a reference around the added fields, by the lines of the body
- `mentionsReference_of_lines`: on lines of their own no reference survives
- `mentionsReference_ofNode_iff`: exactly which references survive
-/

namespace SoloBuild.Text

/-- A text without blanks does not stand in the blanks at the end of a text. -/
theorem occursIn_trimEnd {c : Char} {needle : List Char} (h : ∀ d ∈ c :: needle, isBlank d = false)
    (text : List Char) : occursIn (c :: needle) (trimEnd text) = occursIn (c :: needle) text := by
  have hdisjoint : ∀ d ∈ c :: needle, d ∉ (text.reverse.takeWhile isBlank).reverse := by
    intro d hd hmem
    have hblank := List.all_eq_true.1 List.all_takeWhile d (List.mem_reverse.1 hmem)
    exact absurd ((h d hd).symm.trans hblank) Bool.false_ne_true
  rw [← occursIn_append_of_disjoint hdisjoint (trimEnd text), trimEnd_append_rest]

/-! ## Texts that mention the same -/

/-- Two texts that begin with the same texts and mention `needle` alike, as far as texts without
backslashes are concerned. -/
structure Alike (needle xs ys : List Char) : Prop where
  begins : ∀ front : List Char, '\\' ∉ front → front.isPrefixOf xs = front.isPrefixOf ys
  mentions : occursIn needle xs = occursIn needle ys

namespace Alike

variable {needle xs ys : List Char}

theorem refl (needle xs : List Char) : Alike needle xs xs :=
  ⟨fun _ _ => rfl, rfl⟩

theorem cons (hneedle : '\\' ∉ needle) (x : Char) (h : Alike needle xs ys) :
    Alike needle (x :: xs) (x :: ys) := by
  have hbegins : ∀ front : List Char, '\\' ∉ front →
      front.isPrefixOf (x :: xs) = front.isPrefixOf (x :: ys) := by
    intro front hfront
    cases front with
    | nil => rfl
    | cons c front =>
      have hrest := h.begins front fun hmem => hfront (List.mem_cons_of_mem c hmem)
      rw [List.isPrefixOf, List.isPrefixOf, hrest]
  exact ⟨hbegins, by rw [occursIn, occursIn, hbegins needle hneedle, h.mentions]⟩

/-- What stands between a backslash and texts that mention the same does not matter when the text
does not begin in it. -/
theorem of_backslash {c : Char} {us vs : List Char} (hus : c ∉ '\\' :: us) (hvs : c ∉ '\\' :: vs)
    (h : Alike (c :: needle) xs ys) :
    Alike (c :: needle) ('\\' :: us ++ xs) ('\\' :: vs ++ ys) := by
  constructor
  · intro front hfront
    cases front with
    | nil => rfl
    | cons d front =>
      have hne : (d == '\\') = false := by
        simp only [List.mem_cons, not_or] at hfront
        simpa using Ne.symm hfront.1
      simp [List.isPrefixOf, hne]
  · rw [occursIn_append_of_not_mem hus, occursIn_append_of_not_mem hvs, h.mentions]

end Alike

end SoloBuild.Text

namespace SoloBuild.SingleFile

open Text Description

/-! ## Extending segments -/

/-- A text with the segments of intermediate output extended. -/
def extendSegments (text : List Char) : List Char :=
  replaceAll "\\int\\".toList "\\int\\CompileSingleFile\\".toList text

/-- A text without the placeholders of the directory. -/
def removePlaceholders (text : List Char) : List Char :=
  replaceAll "\\$_CURRENT_BFF_DIR_$".toList [] text

theorem moveText_eq (moved : Bool) (text : List Char) :
    moveText moved text = removePlaceholders (if moved then extendSegments text else text) := rfl

/-- Up to its first backslash nothing of a text changes. -/
theorem isPrefixOf_extendSegments {front : List Char} (hfront : '\\' ∉ front) (text : List Char) :
    front.isPrefixOf (extendSegments text) = front.isPrefixOf text := by
  induction text generalizing front with
  | nil => rfl
  | cons x xs ih =>
    cases front with
    | nil => rfl
    | cons c front =>
      simp only [List.mem_cons, not_or] at hfront
      by_cases hx : x = '\\'
      · -- Whatever follows it, the backslash stays, and the front does not begin with one.
        obtain ⟨rest, hrest⟩ : ∃ rest, extendSegments (x :: xs) = '\\' :: rest := by
          rw [extendSegments, segment_eq]
          by_cases hsegment : '\\' :: "int\\".toList <+: x :: xs
          · obtain ⟨rest, hrest⟩ := hsegment
            rw [← hrest, replaceAll_append_self]
            exact ⟨_, rfl⟩
          · rw [replaceAll_cons_of_not_starts hsegment, hx]
            exact ⟨_, rfl⟩
        have hne : (c == '\\') = false := by simpa using Ne.symm hfront.1
        rw [hrest, hx, List.isPrefixOf, List.isPrefixOf, hne]
        rfl
      · have hkeep : extendSegments (x :: xs) = x :: extendSegments xs := by
          rw [extendSegments, segment_eq]
          exact @replaceAll_append_of_not_mem '\\' _ [x] (by simpa using Ne.symm hx) _ xs
        rw [hkeep, List.isPrefixOf, List.isPrefixOf, ih hfront.2]

/-- A backslash stays when the name behind it is not that of the placeholder. -/
theorem removePlaceholders_segment {u : Char} {us : List Char} (hu : u ≠ '$') (hus : '\\' ∉ u :: us)
    (rest : List Char) :
    removePlaceholders ('\\' :: ((u :: us) ++ rest)) =
      '\\' :: ((u :: us) ++ removePlaceholders rest) := by
  have hnot : ¬ '\\' :: "$_CURRENT_BFF_DIR_$".toList <+: '\\' :: ((u :: us) ++ rest) := by
    rintro ⟨after, hafter⟩
    have hmark : "$_CURRENT_BFF_DIR_$".toList = '$' :: "_CURRENT_BFF_DIR_$".toList := by simp
    rw [hmark] at hafter
    exact hu (List.cons.inj (List.cons.inj hafter).2).1.symm
  rw [removePlaceholders, removePlaceholders, placeholder_eq, replaceAll_cons_of_not_starts hnot]
  exact congrArg ('\\' :: ·) (replaceAll_append_of_not_mem hus [] rest)

section Extend

variable {c : Char} {needle text : List Char}

/-- Extending the segments behind a backslash: the placeholder that may begin there is removed in
both texts or in none. -/
theorem alike_backslash (hneedle : '\\' ∉ c :: needle)
    (hself : Alike (c :: needle) (removePlaceholders (extendSegments text))
      (removePlaceholders text))
    (hshorter : ∀ rest, rest.length < text.length → Alike (c :: needle)
      (removePlaceholders (extendSegments rest)) (removePlaceholders rest)) :
    Alike (c :: needle) (removePlaceholders ('\\' :: extendSegments text))
      (removePlaceholders ('\\' :: text)) := by
  have hplain : '\\' ∉ "$_CURRENT_BFF_DIR_$".toList := by decide
  by_cases hbegins : "$_CURRENT_BFF_DIR_$".toList <+: text
  · obtain ⟨rest, rfl⟩ := hbegins
    have hextend : extendSegments ("$_CURRENT_BFF_DIR_$".toList ++ rest) =
        "$_CURRENT_BFF_DIR_$".toList ++ extendSegments rest := by
      rw [extendSegments, segment_eq]
      exact replaceAll_append_of_not_mem hplain _ rest
    have hremove : ∀ after, removePlaceholders
        ('\\' :: ("$_CURRENT_BFF_DIR_$".toList ++ after)) = removePlaceholders after := by
      intro after
      rw [removePlaceholders, placeholder_eq]
      exact replaceAll_append_self '\\' _ [] after
    have hlength : 0 < "$_CURRENT_BFF_DIR_$".toList.length := by decide
    rw [hextend, hremove, hremove]
    exact hshorter rest (by rw [List.length_append]; omega)
  · have hbegins' : ¬ "$_CURRENT_BFF_DIR_$".toList <+: extendSegments text := by
      rwa [← List.isPrefixOf_iff_prefix, isPrefixOf_extendSegments hplain,
        List.isPrefixOf_iff_prefix]
    have hkeep : ∀ after, ¬ "$_CURRENT_BFF_DIR_$".toList <+: after →
        removePlaceholders ('\\' :: after) = '\\' :: removePlaceholders after := by
      intro after hafter
      rw [removePlaceholders, removePlaceholders, placeholder_eq]
      refine replaceAll_cons_of_not_starts (fun hprefix => hafter ?_) []
      exact (List.cons_prefix_cons.1 hprefix).2
    rw [hkeep _ hbegins, hkeep _ hbegins']
    exact hself.cons hneedle '\\'

/-- Extending the segments of a text, from what is behind its first character, or behind the first
segment that it begins with. -/
theorem alike_extendSegments_step (hneedle : '\\' ∉ c :: needle)
    (hc : c ∉ "\\int\\CompileSingleFile\\".toList)
    (hshorter : ∀ rest, rest.length < text.length →
      Alike (c :: needle) (removePlaceholders (extendSegments rest)) (removePlaceholders rest) ∧
      Alike (c :: needle) (removePlaceholders ('\\' :: extendSegments rest))
        (removePlaceholders ('\\' :: rest))) :
    Alike (c :: needle) (removePlaceholders (extendSegments text)) (removePlaceholders text) := by
  by_cases hsegment : '\\' :: "int\\".toList <+: text
  · obtain ⟨rest, rfl⟩ := hsegment
    have hextend : extendSegments ('\\' :: "int\\".toList ++ rest) =
        "\\int\\CompileSingleFile\\".toList ++ extendSegments rest := by
      rw [extendSegments, segment_eq, replaceAll_append_self]
      rfl
    have hold : ∀ after, removePlaceholders ('\\' :: "int\\".toList ++ after) =
        '\\' :: "int".toList ++ removePlaceholders ('\\' :: after) :=
      fun after => @removePlaceholders_segment 'i' "nt".toList (by decide) (by decide) ('\\' :: after)
    have hnew : ∀ after, removePlaceholders ("\\int\\CompileSingleFile\\".toList ++ after) =
        '\\' :: "int\\CompileSingleFile".toList ++ removePlaceholders ('\\' :: after) := by
      intro after
      have hinner := @removePlaceholders_segment 'C' "ompileSingleFile".toList (by decide) (by decide)
        ('\\' :: after)
      have houter := @removePlaceholders_segment 'i' "nt".toList (by decide) (by decide)
        ('\\' :: ("CompileSingleFile".toList ++ '\\' :: after))
      exact houter.trans (congrArg ("\\int".toList ++ ·) hinner)
    rw [hextend, hold, hnew]
    refine Alike.of_backslash (fun hmem => hc ?_) (fun hmem => hc ?_) (hshorter rest ?_).2
    · have hparts : "\\int\\CompileSingleFile\\".toList =
          ('\\' :: "int\\CompileSingleFile".toList) ++ ['\\'] := rfl
      exact hparts ▸ List.mem_append_left _ hmem
    · have hparts : "\\int\\CompileSingleFile\\".toList =
          ('\\' :: "int".toList) ++ "\\CompileSingleFile\\".toList := rfl
      exact hparts ▸ List.mem_append_left _ hmem
    · rw [List.cons_append, List.length_cons, List.length_append]
      omega
  · cases text with
    | nil => exact Alike.refl _ _
    | cons x xs =>
      have hextend : extendSegments (x :: xs) = x :: extendSegments xs := by
        rw [extendSegments, extendSegments, segment_eq, replaceAll_cons_of_not_starts hsegment]
      rw [hextend]
      by_cases hx : x = '\\'
      · rw [hx]
        exact (hshorter xs (Nat.lt_succ_self _)).2
      · have hkeep : ∀ after, removePlaceholders (x :: after) = x :: removePlaceholders after := by
          intro after
          rw [removePlaceholders, placeholder_eq]
          exact @replaceAll_append_of_not_mem '\\' _ [x] (by simpa using Ne.symm hx) [] after
        rw [hkeep, hkeep]
        exact (hshorter xs (Nat.lt_succ_self _)).1.cons hneedle x

/-- Extending the segments of a text changes nothing that stands around them. -/
theorem alike_extendSegments (hneedle : '\\' ∉ c :: needle)
    (hc : c ∉ "\\int\\CompileSingleFile\\".toList) (text : List Char) :
    Alike (c :: needle) (removePlaceholders (extendSegments text)) (removePlaceholders text) := by
  -- The placeholder may begin with the backslash that ends a segment, so the texts behind a
  -- backslash go along.
  have hboth : ∀ (n : Nat) (text : List Char), text.length ≤ n →
      Alike (c :: needle) (removePlaceholders (extendSegments text)) (removePlaceholders text) ∧
      Alike (c :: needle) (removePlaceholders ('\\' :: extendSegments text))
        (removePlaceholders ('\\' :: text)) := by
    intro n
    induction n with
    | zero =>
      intro text htext
      obtain rfl := List.eq_nil_of_length_eq_zero (Nat.le_zero.1 htext)
      exact ⟨Alike.refl _ _, Alike.refl _ _⟩
    | succ n ih =>
      intro text htext
      have hself := @alike_extendSegments_step c needle text hneedle hc
        fun rest hrest => ih rest (by omega)
      exact ⟨hself, alike_backslash hneedle hself fun rest hrest => (ih rest (by omega)).1⟩
  exact (hboth _ text (Nat.le_refl _)).1

end Extend

/-! ## References -/

/-- The texts that a single-file target is to lack. -/
def references : List (List Char) :=
  [({} : Settings).unityField.toList, ({} : Settings).copyStepMarker.toList]

/-- The text mentions the unity field or a copy step. -/
def mentionsReference (text : List Char) : Bool :=
  isDropped {} text

theorem mentionsReference_iff {text : List Char} :
    mentionsReference text = true ↔ ∃ reference ∈ references, occursIn reference text = true := by
  simp [mentionsReference, isDropped, references]

/-- A reference is a text without blanks, brackets and backslashes, and begins with none of the
characters of a segment. -/
theorem exists_cons_of_mem_references {reference : List Char} (h : reference ∈ references) :
    ∃ c needle, reference = c :: needle ∧ (∀ d ∈ c :: needle, isBlank d = false) ∧
      (∀ d ∈ ['\n', '}', ')', '\\'], d ∉ c :: needle) ∧
      c ∉ "\\int\\CompileSingleFile\\".toList := by
  rcases List.mem_cons.1 h with rfl | h
  · exact ⟨'.', "CompilerInputUnity".toList, unityField_eq, by decide⟩
  · obtain rfl := List.mem_singleton.1 h
    exact ⟨'\'', "Copy_".toList, copyStepMarker_eq, by decide⟩

section Reference

variable {reference : List Char}

/-- Moving intermediate output neither makes nor hides a reference: only the placeholders count. -/
theorem occursIn_moveText (h : reference ∈ references) (moved : Bool) (text : List Char) :
    occursIn reference (moveText moved text) = occursIn reference (removePlaceholders text) := by
  obtain ⟨c, needle, rfl, -, hmarks, hsegment⟩ := exists_cons_of_mem_references h
  rw [moveText_eq]
  cases moved with
  | false => rfl
  | true => exact (alike_extendSegments (hmarks '\\' (by decide)) hsegment text).mentions

/-- A reference stands in one line. -/
theorem occursIn_joinLines (h : reference ∈ references) (lines : List (List Char)) :
    occursIn reference (joinLines lines) = lines.any (occursIn reference) := by
  obtain ⟨c, needle, rfl, -, hmarks, -⟩ := exists_cons_of_mem_references h
  induction lines with
  | nil => rfl
  | cons line lines ih =>
    cases lines with
    | nil => simp [joinLines_cons]
    | cons next lines =>
      have hsplit : joinLines (line :: next :: lines) = line ++ '\n' :: joinLines (next :: lines) :=
        joinLines_append (List.cons_ne_nil line []) (List.cons_ne_nil next lines)
      rw [hsplit, occursIn_append_cons (hmarks '\n' (by decide)), ih]
      rfl

/-- The parts of a body mention what the body mentions: no reference holds a brace, or a blank. -/
theorem occursIn_bodyParts (h : reference ∈ references) (node : TargetNode) :
    (occursIn reference (bodyParts node {}).1 || occursIn reference (bodyParts node {}).2) =
      occursIn reference (joinLines (keptLines {} node.bodyLines)) := by
  obtain ⟨c, needle, rfl, hblank, hmarks, -⟩ := exists_cons_of_mem_references h
  rw [bodyParts]
  generalize joinLines (keptLines {} node.bodyLines) = body
  cases hbody : splitAtLast '}' body with
  | none => simp [occursIn]
  | some parts =>
    obtain ⟨front, back⟩ := parts
    obtain ⟨rfl, rest, rfl, -⟩ := splitAtLast_eq_some hbody
    have hbrace : '}' ∉ c :: needle := hmarks '}' (by decide)
    have hback : occursIn (c :: needle) ('}' :: rest) = occursIn (c :: needle) rest :=
      occursIn_append_cons hbrace [] rest
    rw [occursIn_append_cons hbrace]
    show (occursIn (c :: needle) (trimEnd front) || occursIn (c :: needle) ('}' :: rest)) = _
    rw [occursIn_trimEnd hblank, hback]

/-- The header of a target mentions no reference. -/
theorem occursIn_headerText_append (h : reference ∈ references) (rest : List Char) :
    occursIn reference (headerText {} ++ rest) = occursIn reference rest := by
  have hnone : ∀ reference ∈ references,
      occursIn reference "ObjectList( 'CompileSingleFile' ".toList = false := by
    decide
  have hheader : headerText {} = "ObjectList( 'CompileSingleFile' ".toList ++ [')'] := by decide
  have hreference := hnone reference h
  obtain ⟨c, needle, rfl, -, hmarks, -⟩ := exists_cons_of_mem_references h
  rw [hheader, List.append_assoc, List.singleton_append,
    occursIn_append_cons (hmarks ')' (by decide)), hreference, Bool.false_or]

end Reference

/-! ## What survives -/

/-- The text of a target before the added fields. -/
def beforeFields (node : TargetNode) : List Char :=
  headerText {} ++ (bodyParts node {}).1

/-- The text of a target after the added fields. -/
def afterFields (node : TargetNode) : List Char :=
  (bodyParts node {}).2

/-- The last line of a body without the fields that are cut out of it. -/
def cutLast? (node : TargetNode) : Option (List Char) :=
  node.bodyLines.getLast?.map
    (cutInlineFields ({} : Settings).unityField.toList ({} : Settings).copyStepMarker.toList)

theorem keptLines_eq (node : TargetNode) :
    keptLines {} node.bodyLines =
      ((node.bodyLines.dropLast.filter fun line => !mentionsReference line) ++
        (cutLast? node).toList).map (relocate {}) := by
  rw [cutLast?, Option.toList_map]
  rfl

theorem targetText_eq_around (node : TargetNode) (input : Path) :
    targetText node input {} =
      beforeFields node ++ (injectedFields (lineBreak node.body) input ++ afterFields node) := by
  rw [targetText, insertFields_eq, beforeFields, afterFields]
  simp only [List.append_assoc]

/-- A reference around the added fields stands in a line that is kept, or in what is left of the last
line, when the placeholders are gone. -/
theorem occursIn_around_iff {reference : List Char} (h : reference ∈ references)
    (node : TargetNode) :
    (occursIn reference (beforeFields node) = true ∨
        occursIn reference (afterFields node) = true) ↔
      (∃ line ∈ node.bodyLines.dropLast, mentionsReference line = false ∧
        occursIn reference (removePlaceholders line) = true) ∨
      ∃ last ∈ cutLast? node, occursIn reference (removePlaceholders last) = true := by
  have hrelocate : ∀ line, occursIn reference (relocate {} line) =
      occursIn reference (removePlaceholders line) := by
    intro line
    rw [relocate_eq, occursIn_moveText h]
  rw [beforeFields, afterFields, occursIn_headerText_append h, ← Bool.or_eq_true,
    occursIn_bodyParts h, occursIn_joinLines h, List.any_eq_true]
  have hkept : ∀ line, line ∈ keptLines {} node.bodyLines ↔
      ∃ old, ((old ∈ node.bodyLines.dropLast ∧ mentionsReference old = false) ∨
        old ∈ cutLast? node) ∧ relocate {} old = line := by
    intro line
    rw [keptLines_eq, List.mem_map]
    simp only [List.mem_append, List.mem_filter, Option.mem_toList, Option.mem_def,
      Bool.not_eq_true']
  constructor
  · rintro ⟨line, hline, hoccurs⟩
    obtain ⟨old, ⟨hold, hkeep⟩ | hold, rfl⟩ := (hkept line).1 hline
    · exact .inl ⟨old, hold, hkeep, hrelocate old ▸ hoccurs⟩
    · exact .inr ⟨old, hold, hrelocate old ▸ hoccurs⟩
  · rintro (⟨old, hold, hkeep, hoccurs⟩ | ⟨old, hold, hoccurs⟩)
    · exact ⟨_, (hkept _).2 ⟨old, .inl ⟨hold, hkeep⟩, rfl⟩, (hrelocate old).trans hoccurs⟩
    · exact ⟨_, (hkept _).2 ⟨old, .inr hold, rfl⟩, (hrelocate old).trans hoccurs⟩

/-- What is left of the last line ends the text of a target when it ends with the brace. -/
theorem afterFields_of_brace {node : TargetNode} {front : List Char}
    (h : cutLast? node = some (front ++ ['}'])) : afterFields node = ['}'] := by
  have hmove : relocate {} (front ++ ['}']) =
      moveText (occursIn ".Intermediate".toList (front ++ ['}'])) front ++ ['}'] := by
    rw [relocate_eq, moveText_append_cons (by decide) (by decide),
      moveText_of_not_mem List.not_mem_nil]
  obtain ⟨body, hbody⟩ : ∃ body, joinLines (keptLines {} node.bodyLines) = body ++ ['}'] := by
    rw [keptLines_eq, h, Option.toList_some, List.map_append, List.map_singleton, hmove]
    generalize (node.bodyLines.dropLast.filter fun line =>
      !mentionsReference line).map (relocate {}) = kept
    cases kept with
    | nil => exact ⟨_, rfl⟩
    | cons line lines =>
      rw [joinLines_append (List.cons_ne_nil line lines) (List.cons_ne_nil _ [])]
      exact ⟨_, (List.append_assoc _ (_ :: _) ['}']).symm⟩
  rw [afterFields, bodyParts, hbody, splitAtLast_append body List.not_mem_nil]

/-- Around its added fields a target mentions the unity field or a copy step exactly where a line
that mentions neither comes to when the placeholders are removed, or where what is left of the last
line does, its placeholders removed as well. -/
theorem mentionsReference_around_iff (node : TargetNode) :
    (mentionsReference (beforeFields node) = true ∨ mentionsReference (afterFields node) = true) ↔
      (∃ line ∈ node.bodyLines.dropLast, mentionsReference line = false ∧
        mentionsReference (removePlaceholders line) = true) ∨
      ∃ last ∈ cutLast? node, mentionsReference (removePlaceholders last) = true := by
  -- One reference at a time.
  have hmentions : (mentionsReference (beforeFields node) = true ∨
      mentionsReference (afterFields node) = true) ↔ ∃ reference ∈ references,
        occursIn reference (beforeFields node) = true ∨
          occursIn reference (afterFields node) = true := by
    simp only [mentionsReference_iff, ← exists_or, ← and_or_left]
  rw [hmentions]
  constructor
  · rintro ⟨reference, h, haround⟩
    refine ((occursIn_around_iff h node).1 haround).imp ?_ ?_
    · rintro ⟨line, hline, hkept, hoccurs⟩
      exact ⟨line, hline, hkept, mentionsReference_iff.2 ⟨reference, h, hoccurs⟩⟩
    · rintro ⟨last, hlast, hoccurs⟩
      exact ⟨last, hlast, mentionsReference_iff.2 ⟨reference, h, hoccurs⟩⟩
  · rintro (⟨line, hline, hkept, hgone⟩ | ⟨last, hlast, hgone⟩)
    · obtain ⟨reference, h, hoccurs⟩ := mentionsReference_iff.1 hgone
      exact ⟨reference, h, (occursIn_around_iff h node).2 (.inl ⟨line, hline, hkept, hoccurs⟩)⟩
    · obtain ⟨reference, h, hoccurs⟩ := mentionsReference_iff.1 hgone
      exact ⟨reference, h, (occursIn_around_iff h node).2 (.inr ⟨last, hlast, hoccurs⟩)⟩

/-- With its closing brace on a line of its own and without placeholders, a declaration loses all of
its references, whatever operators and values its fields have. -/
theorem mentionsReference_of_lines {node : TargetNode} {last : List Char}
    (hlast : node.bodyLines.getLast? = some last) (hpoint : '.' ∉ last) (hquote : '\'' ∉ last)
    (hplaceholder : ∀ line ∈ node.bodyLines,
      occursIn "\\$_CURRENT_BFF_DIR_$".toList line = false) :
    mentionsReference (beforeFields node) = false ∧ mentionsReference (afterFields node) = false := by
  have hsame : ∀ line ∈ node.bodyLines, removePlaceholders line = line := fun line hline =>
    replaceAll_of_not_occursIn [] (hplaceholder line hline)
  have hcut : cutLast? node = some last := by
    rw [cutLast?, hlast, Option.map_some, cutInlineFields_of_not_mem hpoint]
  rw [← Bool.not_eq_true, ← Bool.not_eq_true, ← not_or, mentionsReference_around_iff, not_or]
  constructor
  · rintro ⟨line, hline, hkept, hgone⟩
    rw [hsame line (List.dropLast_subset _ hline), hkept] at hgone
    cases hgone
  · rintro ⟨other, hother, hgone⟩
    rw [hcut] at hother
    obtain rfl := Option.some.inj hother
    have hnone : mentionsReference last = false := isDropped_eq_false hpoint hquote
    rw [hsame last (List.mem_of_getLast? hlast), hnone] at hgone
    cases hgone

/-- The text of a target around its added fields, and which references survive in it. When the brace
is left on the last line, nothing but the brace stands after the added fields, so they survive before
them. -/
theorem mentionsReference_ofNode_iff (node : TargetNode) (input : Path) :
    (Target.ofNode node input {}).text.toList =
      beforeFields node ++ (injectedFields (lineBreak node.body) input ++ afterFields node) ∧
    ((mentionsReference (beforeFields node) = true ∨ mentionsReference (afterFields node) = true) ↔
      (∃ line ∈ node.bodyLines.dropLast, mentionsReference line = false ∧
        mentionsReference (removePlaceholders line) = true) ∨
      ∃ last ∈ cutLast? node, mentionsReference (removePlaceholders last) = true) ∧
    ((∃ front, cutLast? node = some (front ++ ['}'])) → afterFields node = ['}']) := by
  refine ⟨?_, mentionsReference_around_iff node, fun ⟨front, hfront⟩ => afterFields_of_brace hfront⟩
  rw [Target.ofNode, String.toList_ofList, targetText_eq_around]

/-- The library X of a document is located, and a reference stands before the added fields of its
target. -/
def KeepsReference (text : String) : Prop :=
  ∃ node, Document.locate ⟨⟨"Project.bff"⟩, text⟩ "X" [.library] = .ok node ∧
    mentionsReference (beforeFields node) = true

theorem keepsReference_iff {text : String} :
    KeepsReference text ↔ (Document.locate ⟨⟨"Project.bff"⟩, text⟩ "X" [.library]).map
      (fun node => mentionsReference (beforeFields node)) = .ok true := by
  unfold KeepsReference
  cases Document.locate ⟨⟨"Project.bff"⟩, text⟩ "X" [.library] with
  | error reason => simp [Except.map]
  | ok node => simp [Except.map]

instance (text : String) : Decidable (KeepsReference text) :=
  decidable_of_iff' _ keepsReference_iff

/-- References that survive: a copy step that is added to another value, and a unity field that is
added to, both on the line of the closing brace, and a copy step that a placeholder splits. -/
theorem keepsReference_sample :
    KeepsReference
      "Library( 'X' ) \x7b .A = 'b'; .PreBuildDependencies = .Base + 'Copy_Data' \x7d" ∧
    KeepsReference "Library( 'X' ) \x7b .CompilerInputUnity + 'U' \x7d" ∧
    KeepsReference "Library( 'X' )\n\x7b\n.A = '\\$_CURRENT_BFF_DIR_$Copy_Data'\n\x7d" := by
  decide +kernel

end SoloBuild.SingleFile
