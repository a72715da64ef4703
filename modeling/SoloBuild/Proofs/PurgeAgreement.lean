import SoloBuild.Proofs.PurgeIndependence

/-!
# Whether the purge finds the directory that was written

Rewriting extends the segment of intermediate output in a literal of the declaration, and the purge
reads the directory back from the text of the target. It reads the literal only when nothing is
quoted before it on its line, so never on the line of the header, and it takes the last segment
before the last quote of the line. This module says exactly when the two agree.

## Key results

- `newline_not_mem_keptLines`: kept lines are lines
- `directoryValue?_eq_none`: lines without the field or without the segment name no directory
- `exists_restOfLine`: what stands after a literal in the target, up to its last quote
- `directoryValue?_ofNode_iff`: when the directory is the one of the literal
-/

namespace SoloBuild.Text

open Description

/-- A text that begins with a character that the front lacks occurs in what follows the front. -/
theorem infix_of_infix_append {c : Char} {cs xs ys : List Char} (h : c ∉ xs)
    (hoccurs : c :: cs <:+: xs ++ ys) : c :: cs <:+: ys := by
  rw [← occursIn_iff, occursIn_append_of_not_mem h] at hoccurs
  exact occursIn_iff.1 hoccurs

theorem dropReturn_isPrefix (line : List Char) : dropReturn line <+: line := by
  rcases List.eq_nil_or_concat line with rfl | ⟨front, c, rfl⟩
  · exact List.prefix_refl []
  · rw [List.concat_eq_append, dropReturn_concat]
    split
    · exact List.prefix_append front [c]
    · exact List.prefix_refl _

/-- A line break at the end of a line takes no more than a carriage return. -/
theorem exists_dropReturn_eq (front back : List Char) :
    ∃ rest unquoted, dropReturn (front ++ '\'' :: back) = front ++ '\'' :: rest ∧
      back = rest ++ unquoted ∧ '\'' ∉ unquoted := by
  rcases List.eq_nil_or_concat back with rfl | ⟨rest, c, rfl⟩
  · exact ⟨[], [], by rw [dropReturn_concat]; rfl, rfl, List.not_mem_nil⟩
  · rw [List.concat_eq_append, ← List.cons_append, ← List.append_assoc, dropReturn_concat]
    split
    · rename_i hc
      exact ⟨rest, [c], rfl, rfl, by rw [hc]; decide⟩
    · exact ⟨rest ++ [c], [], by simp, by simp, List.not_mem_nil⟩

end SoloBuild.Text

namespace SoloBuild.SingleFile

open Text Description

/-! ## The lines that are kept -/

theorem mem_cutFrom {after? : List Char → Option (List Char)} {skip : Nat} {text : List Char}
    {c : Char} (h : c ∈ cutFrom after? skip text) : c ∈ text := by
  induction text generalizing skip with
  | nil => cases skip <;> cases h
  | cons d ds ih =>
    cases skip with
    | succ skip => exact List.mem_cons_of_mem d (ih h)
    | zero =>
      rw [cutFrom] at h
      split at h
      · rcases List.mem_cons.1 h with rfl | h
        · exact List.mem_cons_self
        · exact List.mem_cons_of_mem d (ih h)
      · exact List.mem_cons_of_mem d (ih h)

/-- Kept lines are lines. -/
theorem newline_not_mem_keptLines {node : TargetNode} {line : List Char}
    (h : line ∈ keptLines {} node.bodyLines) : '\n' ∉ line := by
  obtain ⟨kept, hkept, rfl⟩ := List.mem_map.1 h
  rw [relocate_eq]
  refine not_mem_moveText (by decide) ?_ _
  rcases List.mem_append.1 hkept with hfront | hlast
  · exact not_mem_of_mem_splitLines (List.mem_of_mem_dropLast (List.mem_of_mem_filter hfront))
  · obtain ⟨last, hmem, rfl⟩ := List.mem_map.1 hlast
    have hline : last ∈ splitLines node.body := List.mem_of_getLast? (Option.mem_toList.1 hmem)
    intro hmem
    exact not_mem_of_mem_splitLines hline (mem_cutFrom (mem_cutFrom hmem))

/-! ## Reading line by line -/

variable {s : Settings}

/-- Lines without the field or without the segment name no directory. -/
theorem directoryValue?_eq_none {text : List Char}
    (h : ∀ line ∈ splitLines text, s.intermediateField.toList <:+: line →
      ¬s.channelSegment <:+: line) : directoryValue? (text ++ ['\n']) s = none := by
  rw [directoryValue?, lines_concat_newline, List.findSome?_eq_none_iff]
  intro line hline
  obtain ⟨hmem, hfield⟩ := List.mem_filter.1 hline
  obtain ⟨whole, hwhole, rfl⟩ := List.mem_map.1 hmem
  have hpart : dropReturn whole <:+: whole := (dropReturn_isPrefix whole).isInfix
  by_contra hvalue
  obtain ⟨before, value, following, after, hparts⟩ :=
    channelDirectory?_isSome_iff.1 (Option.isSome_iff_ne_none.2 hvalue)
  have hsegment : s.channelSegment <:+: dropReturn whole :=
    ⟨before ++ '\'' :: value, following ++ '\'' :: after, by rw [hparts]; simp⟩
  exact h whole hwhole ((occursIn_iff.1 hfield).trans hpart) (hsegment.trans hpart)

/-- A line that mentions the field before a quote is read as it stands. -/
theorem directoryValue?_line {front back : List Char} (hnewline : '\n' ∉ front ++ '\'' :: back)
    (hfield : s.intermediateField.toList <:+: front) (rest : List Char) :
    directoryValue? (front ++ '\'' :: back ++ '\n' :: rest) s =
      (channelDirectory? s.channelSegment (front ++ '\'' :: back)).or (directoryValue? rest s) := by
  obtain ⟨kept, unquoted, hkept, rfl, hunquoted⟩ := exists_dropReturn_eq front back
  have hmentions : occursIn s.intermediateField.toList (front ++ '\'' :: kept) = true :=
    occursIn_iff.2 (hfield.trans (List.prefix_append _ _).isInfix)
  have hline : directoryValue? (front ++ '\'' :: (kept ++ unquoted) ++ ['\n']) s =
      channelDirectory? s.channelSegment (front ++ '\'' :: kept) := by
    rw [directoryValue?, lines_concat_newline, splitLines_of_not_mem hnewline, List.map_singleton,
      hkept]
    simp [hmentions]
  rw [directoryValue?_append_newline, hline, ← channelDirectory?_append hunquoted]
  simp

/-! ## The line of a literal in the target -/

theorem exists_blanks (text : List Char) :
    ∃ blanks, text = trimEnd text ++ blanks ∧ '\'' ∉ blanks := by
  refine ⟨_, (trimEnd_append_rest text).symm, fun hmem => ?_⟩
  have hblank := List.all_eq_true.1 List.all_takeWhile _ (List.mem_reverse.1 hmem)
  exact absurd hblank (by decide)

/-- What stands after a quote in the target, up to the last quote of the line, is what stood there
in the line that was kept. -/
theorem exists_restOfLine {post inner indent : List Char} (hquote : '\'' ∉ indent)
    (hnewline : '\n' ∉ indent) (hpost : '\n' ∉ post) (rest : List Char)
    (h : inner ++ ['}'] = post ∨ ∃ later, inner ++ ['}'] = post ++ '\n' :: later) :
    ∃ same unquoted more unquoted', trimEnd inner ++ (indent ++ '\n' :: rest) =
        same ++ unquoted ++ '\n' :: more ∧ post = same ++ unquoted' ∧
      '\'' ∉ unquoted ∧ '\'' ∉ unquoted' ∧ '\n' ∉ same ++ unquoted := by
  rcases h with rfl | ⟨later, hlater⟩
  · -- The closing brace stands on the line itself, and the added fields begin a line.
    obtain ⟨blanks, hblanks, hunquoted⟩ := exists_blanks inner
    refine ⟨trimEnd inner, indent, rest, blanks ++ ['}'], by simp, ?_, hquote, by simp [hunquoted],
      ?_⟩
    · rw [← List.append_assoc, ← hblanks]
    · rw [hblanks] at hpost
      simp only [List.mem_append, not_or] at hpost ⊢
      exact ⟨hpost.1.1, hnewline⟩
  · rcases List.eq_nil_or_concat later with rfl | ⟨later, c, rfl⟩
    · exact absurd (List.append_inj' hlater rfl).2 (by decide)
    · rw [List.concat_eq_append, ← List.cons_append, ← List.append_assoc] at hlater
      obtain ⟨rfl, -⟩ := List.append_inj' hlater rfl
      rw [trimEnd_append]
      split
      · -- The lines after it are blank, and go with the blanks at its end.
        obtain ⟨blanks, hblanks, hunquoted⟩ := exists_blanks post
        refine ⟨trimEnd post, indent, rest, blanks, by simp, hblanks, hquote, hunquoted, ?_⟩
        rw [hblanks] at hpost
        simp only [List.mem_append, not_or] at hpost ⊢
        exact ⟨hpost.1, hnewline⟩
      · rename_i hne
        obtain ⟨d, kept, hkept⟩ := List.exists_cons_of_ne_nil hne
        have hall := trimEnd_append_rest ('\n' :: later)
        rw [hkept, List.cons_append] at hall
        obtain ⟨rfl, -⟩ := List.cons.inj hall
        exact ⟨post, [], kept ++ (indent ++ '\n' :: rest), [], by rw [hkept]; simp, by simp,
          List.not_mem_nil, List.not_mem_nil, by simpa using hpost⟩

/-- The text before a literal on its line in the target: the header is on the first line. -/
def beforeOnLine (earlier : List (List Char)) (before : List Char) : List Char :=
  if earlier = [] then headerText {} ++ before else before

/-- The lines of the target before the line of a literal. -/
def linesBefore (earlier : List (List Char)) : List Char :=
  if earlier = [] then [] else headerText {} ++ joinLines earlier ++ ['\n']

variable {node : TargetNode} {earlier later : List (List Char)} {before literal after : List Char}

/-- The header, the earlier lines and a line, as the target holds them. -/
theorem headerText_append_joinLines (rest : List Char) :
    headerText {} ++ joinLines (earlier ++ (before ++ rest) :: later) =
      linesBefore earlier ++ (beforeOnLine earlier before ++
        (rest ++ later.flatMap ('\n' :: ·))) := by
  by_cases hearlier : earlier = []
  · rw [linesBefore, beforeOnLine, if_pos hearlier, if_pos hearlier, hearlier, List.nil_append,
      joinLines_cons]
    simp
  · rw [linesBefore, beforeOnLine, if_neg hearlier, if_neg hearlier,
      joinLines_append hearlier (List.cons_ne_nil _ _), joinLines_cons]
    simp

/-- The header ends with no blank, so the blanks at the end are those of what follows it. -/
theorem trimEnd_headerText_append (front : List Char) :
    trimEnd (headerText {} ++ front) = headerText {} ++ trimEnd front := by
  obtain ⟨start, hheader⟩ : ∃ start, headerText {} = start ++ [')'] :=
    ⟨"ObjectList( 'CompileSingleFile' ".toList, by decide⟩
  rw [hheader, List.append_assoc, List.append_assoc]
  exact trimEnd_append_cons (by decide) start front

/-- The text of the target whose body ends with the closing brace. -/
theorem exists_targetText_eq_close {front : List Char} (input : Path)
    (hclose : joinLines (keptLines {} node.bodyLines) = front ++ ['}']) :
    ∃ indent rest, (Target.ofNode node input {}).text.toList =
        trimEnd (headerText {} ++ front) ++ (indent ++ '\n' :: rest) ∧
      '\'' ∉ indent ∧ '\n' ∉ indent := by
  have hparts : (bodyParts node {}).1 = trimEnd front := by
    rw [bodyParts, hclose, splitAtLast_append front List.not_mem_nil]
  obtain ⟨indent, hindent, hbreak⟩ := exists_lineBreak_eq node.body
  have hnext : ∀ text, lineBreak node.body ++ text = indent ++ '\n' :: text := by
    intro text
    rw [hbreak, List.append_assoc, List.singleton_append]
  refine ⟨indent, lineBreak node.body ++
    (inputLine (lineBreak node.body) input ++ afterInputLine node {}), ?_, ?_, ?_⟩
  · rw [Target.ofNode, String.toList_ofList, targetText_eq, beforeInputLine, hparts,
      trimEnd_headerText_append, ← hnext]
    simp only [List.append_assoc]
  · exact fun hmem => absurd (hindent _ hmem) (by decide)
  · exact fun hmem => absurd (hindent _ hmem) (by decide)

/-- The text of the target around the literal of a kept line. -/
theorem exists_targetText_eq_literal (input : Path)
    (hkept : keptLines {} node.bodyLines =
      earlier ++ (before ++ '\'' :: (literal ++ '\'' :: after)) :: later)
    (hclose : (joinLines (keptLines {} node.bodyLines)).getLast? = some '}') :
    ∃ same unquoted more unquoted', (Target.ofNode node input {}).text.toList =
        linesBefore earlier ++ (beforeOnLine earlier before ++
          '\'' :: (literal ++ '\'' :: (same ++ unquoted)) ++ '\n' :: more) ∧
      after = same ++ unquoted' ∧ '\'' ∉ unquoted ∧ '\'' ∉ unquoted' ∧
      '\n' ∉ same ++ unquoted := by
  have hline : '\n' ∉ before ++ '\'' :: (literal ++ '\'' :: after) :=
    newline_not_mem_keptLines (hkept ▸ List.mem_append_right earlier List.mem_cons_self)
  have hafter : '\n' ∉ after := fun hmem => hline (by simp [hmem])
  obtain ⟨front, hfront⟩ := List.getLast?_eq_some_iff.1 hclose
  obtain ⟨indent, rest, htarget, hquote, hnewline⟩ := exists_targetText_eq_close input hfront
  have hwhole : headerText {} ++ front ++ ['}'] =
      linesBefore earlier ++ (beforeOnLine earlier before ++ '\'' :: literal) ++
        '\'' :: (after ++ later.flatMap ('\n' :: ·)) := by
    rw [List.append_assoc, ← hfront, hkept, headerText_append_joinLines]
    simp
  -- The closing brace stands behind the literal, on its line or on a later one.
  obtain ⟨inner, hinner, hbefore⟩ : ∃ inner, after ++ later.flatMap ('\n' :: ·) = inner ++ ['}'] ∧
      headerText {} ++ front = linesBefore earlier ++
        (beforeOnLine earlier before ++ '\'' :: literal) ++ '\'' :: inner := by
    rcases List.eq_nil_or_concat (after ++ later.flatMap ('\n' :: ·)) with hnil | ⟨inner, c, hlast⟩
    · rw [hnil] at hwhole
      exact absurd (List.append_inj' hwhole rfl).2 (by decide)
    · rw [List.concat_eq_append] at hlast
      rw [hlast, ← List.cons_append, ← List.append_assoc] at hwhole
      obtain ⟨hbefore, hc⟩ := List.append_inj' hwhole rfl
      exact ⟨inner, by rw [hlast, hc], hbefore⟩
  have hclosing : inner ++ ['}'] = after ∨ ∃ text, inner ++ ['}'] = after ++ '\n' :: text := by
    rw [← hinner]
    cases later with
    | nil => exact .inl (List.append_nil after)
    | cons next later => exact .inr ⟨_, rfl⟩
  obtain ⟨same, unquoted, more, unquoted', hrest, hsame⟩ :=
    exists_restOfLine hquote hnewline hafter rest hclosing
  refine ⟨same, unquoted, more, unquoted', ?_, hsame⟩
  rw [htarget, hbefore, trimEnd_append_cons (by decide), List.append_assoc, List.cons_append, hrest]
  simp

/-! ## The directory of a literal -/

/-- The segment of single-file output. -/
def channel : List Char :=
  "\\CompileSingleFile\\".toList

theorem channelSegment_eq : ({} : Settings).channelSegment = channel := by
  decide

theorem quote_not_mem_beforeOnLine_iff :
    '\'' ∉ beforeOnLine earlier before ↔ earlier ≠ [] ∧ '\'' ∉ before := by
  have hheader : '\'' ∈ headerText {} := by decide
  rw [beforeOnLine]
  split
  · rename_i hearlier
    simp [hheader, hearlier]
  · rename_i hearlier
    simp [hearlier]

/-- The header and the earlier lines name no directory when none of them holds the segment along
with the field. -/
theorem directoryValue?_linesBefore_append
    (hnewline : ∀ line ∈ earlier, '\n' ∉ line)
    (hearlier : ∀ line ∈ earlier, ".Intermediate".toList <:+: line → ¬channel <:+: line)
    (rest : List Char) :
    directoryValue? (linesBefore earlier ++ rest) {} = directoryValue? rest {} := by
  cases earlier with
  | nil => rfl
  | cons first others =>
    have hsplit : splitLines (headerText {} ++ joinLines (first :: others)) =
        (headerText {} ++ first) :: others := by
      rw [joinLines_cons, ← List.append_assoc]
      refine splitLines_flatMap fun line hline => ?_
      rcases List.mem_cons.1 hline with rfl | hline
      · have hheader : '\n' ∉ headerText {} := by decide
        simp [hheader, hnewline first List.mem_cons_self]
      · exact hnewline line (List.mem_cons_of_mem first hline)
    have hnone : directoryValue? (headerText {} ++ joinLines (first :: others) ++ ['\n']) {} =
        none := by
      refine directoryValue?_eq_none fun line hline hfield hsegment => ?_
      rw [hsplit] at hline
      rw [channelSegment_eq] at hsegment
      rcases List.mem_cons.1 hline with rfl | hline
      · -- Neither the field nor the segment begins in the header.
        have hpoint : '.' ∉ headerText {} := by decide
        have hbackslash : '\\' ∉ headerText {} := by decide
        exact hearlier first List.mem_cons_self (infix_of_infix_append hpoint hfield)
          (infix_of_infix_append hbackslash hsegment)
      · exact hearlier line (List.mem_cons_of_mem first hline) hfield hsegment
    rw [linesBefore, if_neg (List.cons_ne_nil first others), List.append_assoc,
      List.singleton_append, directoryValue?_append_newline, hnone, Option.none_or]

/-- The directory is read on the line of the literal, from the first quote of that line. -/
theorem directoryValue?_ofNode_literal (input : Path)
    (hkept : keptLines {} node.bodyLines =
      earlier ++ (before ++ '\'' :: (literal ++ '\'' :: after)) :: later)
    (hfield : ".Intermediate".toList <:+: before) (hliteral : channel <:+: literal)
    (hearlier : ∀ line ∈ earlier, ".Intermediate".toList <:+: line → ¬channel <:+: line)
    (hclose : (joinLines (keptLines {} node.bodyLines)).getLast? = some '}') :
    directoryValue? (Target.ofNode node input {}).text.toList {} =
        channelDirectory? channel
          (beforeOnLine earlier before ++ '\'' :: (literal ++ '\'' :: after)) ∧
      (channelDirectory? channel
        (beforeOnLine earlier before ++ '\'' :: (literal ++ '\'' :: after))).isSome = true := by
  have hlines : ∀ line ∈ earlier ++ (before ++ '\'' :: (literal ++ '\'' :: after)) :: later,
      '\n' ∉ line :=
    fun line hline => newline_not_mem_keptLines (hkept ▸ hline)
  obtain ⟨same, unquoted, more, unquoted', htarget, rfl, hunquoted, hunquoted', hsame⟩ :=
    exists_targetText_eq_literal input hkept hclose
  have hsome : ∀ after, (channelDirectory? channel
      (beforeOnLine earlier before ++ '\'' :: (literal ++ '\'' :: after))).isSome = true := by
    intro after
    obtain ⟨value, following, rfl⟩ := hliteral
    exact channelDirectory?_isSome_iff.2
      ⟨beforeOnLine earlier before, value, following, after, by simp⟩
  -- What follows the last quote of the line differs, and does not matter.
  have hlast : ∀ tail, '\'' ∉ tail → channelDirectory? channel
        (beforeOnLine earlier before ++ '\'' :: (literal ++ '\'' :: (same ++ tail))) =
      channelDirectory? channel
        (beforeOnLine earlier before ++ '\'' :: (literal ++ '\'' :: same)) := by
    intro tail htail
    have hline : beforeOnLine earlier before ++ '\'' :: (literal ++ '\'' :: (same ++ tail)) =
        beforeOnLine earlier before ++ '\'' :: (literal ++ '\'' :: same) ++ tail := by
      simp
    rw [hline, channelDirectory?_append htail]
  refine ⟨?_, hsome _⟩
  rw [htarget, directoryValue?_linesBefore_append
      (fun line hline => hlines line (List.mem_append_left _ hline)) hearlier,
    directoryValue?_line ?_ ?_ more, channelSegment_eq, hlast unquoted hunquoted,
    hlast unquoted' hunquoted']
  · obtain ⟨value, hvalue⟩ := Option.isSome_iff_exists.1 (hsome same)
    rw [hvalue, Option.some_or]
  · have hline := hlines _ (List.mem_append_right earlier List.mem_cons_self)
    have hheader : '\n' ∉ headerText {} := by decide
    simp only [List.mem_append, List.mem_cons, not_or] at hline hsame ⊢
    refine ⟨?_, hline.2.1, hline.2.2.1, hline.2.2.2.1, hsame⟩
    rw [beforeOnLine]
    split
    · simp [hheader, hline.1]
    · exact hline.1
  · rw [beforeOnLine]
    split
    · exact hfield.trans (List.suffix_append _ _).isInfix
    · exact hfield

/-- A literal that holds the segment, on the first line that holds it along with the field, decides
which directory is purged. It is the directory of the literal, up to its segment, exactly when the
line is not the one of the header, nothing is quoted before the literal on it, and the segment does
not occur again before a later quote of the line. -/
theorem directoryValue?_ofNode_iff {front following : List Char} (input : Path)
    (hkept : keptLines {} node.bodyLines = earlier ++
      (before ++ '\'' :: (front ++ channel ++ following ++ '\'' :: after)) :: later)
    (hfield : ".Intermediate".toList <:+: before)
    (hearlier : ∀ line ∈ earlier, ".Intermediate".toList <:+: line → ¬channel <:+: line)
    (hclose : (joinLines (keptLines {} node.bodyLines)).getLast? = some '}') :
    ∃ value, directoryValue? (Target.ofNode node input {}).text.toList {} = some value ∧
      (∀ projectDir, intermediateDir? (Target.ofNode node input {}).text.toList projectDir {} =
        some (projectDir.join ⟨String.ofList (value.map fun c => if c = '\\' then '/' else c)⟩)) ∧
      (value = front ++ channel ↔ earlier ≠ [] ∧ '\'' ∉ before ∧
        ¬SegmentAhead channel (channel ++ (following ++ '\'' :: after)).tail) := by
  obtain ⟨hvalue, hsome⟩ := directoryValue?_ofNode_literal input hkept hfield
    ⟨front, following, rfl⟩ hearlier hclose
  obtain ⟨value, hline⟩ := Option.isSome_iff_exists.1 hsome
  rw [hline] at hvalue
  refine ⟨value, hvalue, fun projectDir => ?_, ?_⟩
  · have hseparator : ({} : Settings).pathSeparator = '\\' := by decide
    rw [intermediateDir?_eq, hvalue, hseparator]
    rfl
  · have hquote : '\'' ∈ following ++ '\'' :: after := by simp
    rw [← and_assoc, ← quote_not_mem_beforeOnLine_iff, ← channelDirectory?_quoted_iff hquote]
    rw [List.append_assoc (front ++ channel)] at hline
    rw [hline, Option.some.injEq]

/-- The declaration of a library with a block. -/
def libraryNode (block : String) : TargetNode where
  name := "X"
  kind := .library
  start := 0
  stop := 12 + block.utf8ByteSize
  headerLength := 12
  text := "Library('X')" ++ block

/-- The target that compiles one file of a library. -/
def libraryTarget (block : String) : Target :=
  Target.ofNode (libraryNode block) ⟨"/proj/a.cpp"⟩ {}

/-- The directory of a field on a line of its own is the one that is purged. -/
theorem directoryValue?_ofNode_sample :
    let target := libraryTarget "\n\x7b\n .Intermediate='out\\int\\X\\'\n\x7d"
    intermediateDir? target.text.toList ⟨"/proj"⟩ {} =
      some ⟨"/proj/out/int/CompileSingleFile/"⟩ := by
  have hkept : keptLines {}
      (libraryNode "\n\x7b\n .Intermediate='out\\int\\X\\'\n\x7d").bodyLines =
        [[], "\x7b".toList] ++ (" .Intermediate=".toList ++ '\'' :: ("out\\int".toList ++
          channel ++ "X\\".toList ++ '\'' :: [])) :: ["\x7d".toList] := by
    decide +kernel
  obtain ⟨value, -, hdir, hvalue⟩ := directoryValue?_ofNode_iff ⟨"/proj/a.cpp"⟩ hkept
    ⟨" ".toList, "=".toList, by decide⟩ (by decide +kernel) (by decide +kernel)
  have hlast : ¬SegmentAhead channel (channel ++ ("X\\".toList ++ '\'' :: [])).tail := by
    rw [← segmentFront?_eq_none_iff]
    decide +kernel
  refine (hdir ⟨"/proj"⟩).trans ?_
  rw [hvalue.2 ⟨by decide, by decide, hlast⟩]
  decide +kernel

/-- On one line, the directory that is purged begins in the header. For a literal in double quotes,
or with the placeholder of the directory behind the segment, none is purged. -/
theorem intermediateDir?_ofNode_differs :
    let line := "\x7b.Intermediate='out\\int\\X\\'\x7d"
    let double := "\n\x7b\n.Intermediate=\"out\\int\\X\\\"\n\x7d"
    let placeholder := "\n\x7b\n.Intermediate='out\\int\\$_CURRENT_BFF_DIR_$'\n\x7d"
    (∀ block ∈ [line, double, placeholder],
      Document.locate ⟨⟨"X.bff"⟩, "Library('X')" ++ block⟩ "X" TargetKind.all =
        .ok (libraryNode block)) ∧
      intermediateDir? (libraryTarget line).text.toList ⟨"/proj"⟩ {} =
        some ⟨"/proj/CompileSingleFile' )\x7b.Intermediate='out/int/CompileSingleFile/"⟩ ∧
      intermediateDir? (libraryTarget double).text.toList ⟨"/proj"⟩ {} = none ∧
      intermediateDir? (libraryTarget placeholder).text.toList ⟨"/proj"⟩ {} = none := by
  simp only [libraryTarget, Target.ofNode, String.toList_ofList]
  decide +kernel

end SoloBuild.SingleFile
