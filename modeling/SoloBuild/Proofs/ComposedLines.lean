import SoloBuild.Proofs.ComposeCorrect
import SoloBuild.Proofs.PurgeReading
import SoloBuild.Proofs.RewriteBalance

/-!
# The lines of a transient config

A config holds the lines of a description that are no includes, behind a notice. Dropping a line
could change how the lines behind it are read: a quote in the line may open a literal that goes on,
or close one. It does not when every literal ends on the line it begins on. Then each line is read
from the start of a line, alone and in the config as in the description, and only the last one may
leave a literal open.

## Key results

- `cellLines_append_newline`: a text that leaves no literal open is read alone, and so is the rest
- `lineCells_eq_map`: the lines of a description are read alone
- `exists_cellLines_joinLines`: lines that are put together are read alone
- `cellLines_compose`: the lines of a description that a config keeps are read as they were
-/

namespace SoloBuild.Description

open Text SingleFile

/-! ## Lines with their regions -/

/-- The cell is a newline. -/
def isNewline (cell : Cell) : Bool :=
  cell.1 == '\n'

/-- The pieces of a text between newlines, with the regions that the text gives their characters. -/
def cellLines (text : List Char) : List (List Cell) :=
  (text.zip (classify text)).splitOnP isNewline

/-- The lines of a text file, with the regions that the text gives their characters. The carriage
return of a line break stands at the end of its piece, and is no part of the line. -/
def lineCells (text : List Char) : List (List Cell) :=
  List.zipWith (fun line cells => cells.take line.length) (lines text) (cellLines text)

/-- The text leaves no literal open. -/
def ClosesLiterals (text : List Char) : Prop :=
  (ReadState.start.after none text).isLiteral = false

/-- Every line that another one follows leaves no literal open. -/
def LinesClose (lines : List (List Char)) : Prop :=
  lines.Pairwise fun line _ => ClosesLiterals line

theorem length_cellsFrom (next : Option Char) (state : ReadState) (text : List Char) :
    (cellsFrom next state text).length = text.length := by
  rw [← List.length_map Prod.fst, map_fst_cellsFrom]

theorem cellLines_eq (text : List Char) :
    cellLines text = (cellsFrom none .start text).splitOnP isNewline := rfl

theorem not_isNewline_of_not_mem {next : Option Char} {state : ReadState} {line : List Char}
    (h : '\n' ∉ line) : ∀ cell ∈ cellsFrom next state line, isNewline cell = false := by
  intro cell hcell
  have hmem : cell.1 ∈ line := map_fst_cellsFrom next state line ▸ List.mem_map_of_mem hcell
  exact beq_eq_false_iff_ne.2 fun heq => h (heq ▸ hmem)

/-- A line before a newline is read alone, and its newline from where it leads to. -/
theorem cellsFrom_append_newline (line text : List Char) :
    cellsFrom none .start (line ++ '\n' :: text) =
      cellsFrom none .start line ++
        cellsFrom none (ReadState.start.after none line) ('\n' :: text) := by
  have hnext : ('\n' :: text).head?.or none ≠ some '/' := by simp
  rw [cellsFrom_append, cellsFrom_of_ne_slash hnext, ReadState.after_of_ne_slash hnext]

/-- The pieces before a newline are read as if nothing followed. -/
theorem exists_cellLines_append_newline (front text : List Char) :
    ∃ after, cellLines (front ++ '\n' :: text) = cellLines front ++ after := by
  rw [cellLines_eq, cellsFrom_append_newline, cellsFrom_cons, List.splitOnP_append_cons _ _ rfl]
  exact ⟨_, rfl⟩

/-- A text before a newline is read alone, and so is the rest when it leaves no literal open. -/
theorem cellLines_append_newline {front : List Char} (h : ClosesLiterals front)
    (text : List Char) : cellLines (front ++ '\n' :: text) = cellLines front ++ cellLines text := by
  rw [cellLines_eq, cellsFrom_append_newline, cellsFrom_cons, step_newline h,
    List.splitOnP_append_cons _ _ rfl]
  rfl

theorem cellLines_of_not_mem {line : List Char} (h : '\n' ∉ line) :
    cellLines line = [cellsFrom none .start line] :=
  List.splitOnP_eq_singleton (not_isNewline_of_not_mem h)

/-- A newline outside literals follows a line that leaves none open. -/
theorem closesLiterals_of_newline {line text : List Char}
    (h : ('\n', Region.literal) ∉ cellsFrom none .start (line ++ '\n' :: text)) :
    ClosesLiterals line ∧ ('\n', Region.literal) ∉ cellsFrom none .start text := by
  rw [cellsFrom_append_newline, cellsFrom_cons, List.mem_append, List.mem_cons, not_or, not_or] at h
  have hcloses : ClosesLiterals line := by
    rw [ClosesLiterals, ← Bool.not_eq_true]
    intro hopen
    exact h.2.1 (Prod.ext rfl (ReadState.step_of_isLiteral hopen _ _).symm)
  rw [step_newline hcloses] at h
  exact ⟨hcloses, h.2.2⟩

/-! ## The lines of a description -/

/-- Pieces with newlines outside literals between them are read alone, and every piece that another
one follows leaves no literal open. -/
theorem cellLines_joinLines {pieces : List (List Char)} (hne : pieces ≠ [])
    (hnewline : ∀ piece ∈ pieces, '\n' ∉ piece)
    (houtside : ('\n', Region.literal) ∉ cellsFrom none .start (joinLines pieces)) :
    cellLines (joinLines pieces) = pieces.map (cellsFrom none .start) ∧ LinesClose pieces := by
  induction pieces with
  | nil => exact absurd rfl hne
  | cons piece pieces ih =>
    have hpiece := hnewline piece List.mem_cons_self
    cases pieces with
    | nil =>
      rw [joinLines_singleton]
      exact ⟨cellLines_of_not_mem hpiece, List.pairwise_singleton _ piece⟩
    | cons next pieces =>
      rw [joinLines_cons_cons] at houtside ⊢
      obtain ⟨hcloses, hrest⟩ := closesLiterals_of_newline houtside
      obtain ⟨hcells, hall⟩ := ih (List.cons_ne_nil next pieces)
        (fun other hother => hnewline other (List.mem_cons_of_mem piece hother)) hrest
      rw [cellLines_append_newline hcloses, cellLines_of_not_mem hpiece, hcells]
      exact ⟨rfl, List.pairwise_cons.2 ⟨fun _ _ => hcloses, hall⟩⟩

/-- A line that loses a carriage return ended with it. -/
theorem dropReturn_eq_or (line : List Char) :
    dropReturn line = line ∨ line = dropReturn line ++ ['\r'] := by
  rcases List.eq_nil_or_concat line with rfl | ⟨front, c, rfl⟩
  · exact .inl rfl
  · rw [List.concat_eq_append, dropReturn_concat]
    split_ifs with hc
    · exact .inr (by rw [hc])
    · exact .inl rfl

/-- What a line is read as does not depend on the carriage return behind it. -/
theorem take_cellsFrom_dropReturn (line : List Char) :
    (cellsFrom none .start line).take (dropReturn line).length =
      cellsFrom none .start (dropReturn line) := by
  rcases dropReturn_eq_or line with hline | hline
  · rw [hline, ← length_cellsFrom none .start, List.take_length]
  · have hnext : (some '\r' : Option Char) ≠ some '/' := by decide
    generalize dropReturn line = front at hline ⊢
    rw [hline, cellsFrom_append, List.head?_singleton, Option.some_or, cellsFrom_of_ne_slash hnext,
      ← length_cellsFrom none .start front, List.take_left]

theorem ClosesLiterals.dropReturn {line : List Char} (h : ClosesLiterals line) :
    ClosesLiterals (dropReturn line) := by
  rcases dropReturn_eq_or line with hline | hline
  · rwa [hline]
  · have hnext : (some '\r' : Option Char) ≠ some '/' := by decide
    generalize Text.dropReturn line = front at hline ⊢
    rw [hline, ClosesLiterals, ReadState.after_append, List.head?_singleton, Option.some_or,
      ReadState.after_of_ne_slash hnext] at h
    have hquoted := isQuoted_after (ReadState.isQuoted_code true) none front
    exact (isLiteral_step_blank hquoted (by decide) none).symm.trans h

/-- The last piece is no line when it is empty. -/
theorem zipWith_take_ended (pieces : List (List Char)) :
    List.zipWith (fun line cells => cells.take line.length) (lines.ended pieces)
        (pieces.map (cellsFrom none .start)) =
      (lines.ended pieces).map (cellsFrom none .start) := by
  fun_induction lines.ended pieces with
  | case1 => rfl
  | case2 last hempty => rfl
  | case3 last hempty =>
    simp only [List.map_cons, List.map_nil, List.zipWith_cons_cons, List.zipWith_nil_left]
    rw [← length_cellsFrom none .start last, List.take_length]
  | case4 line rest hrest ih =>
    rw [List.map_cons, List.zipWith_cons_cons, ih, take_cellsFrom_dropReturn, List.map_cons]

theorem mem_ended {pieces : List (List Char)} {line : List Char} (h : line ∈ lines.ended pieces) :
    ∃ piece ∈ pieces, line = piece ∨ line = dropReturn piece := by
  fun_induction lines.ended pieces with
  | case1 => cases h
  | case2 last hempty => cases h
  | case3 last hempty => exact ⟨last, List.mem_cons_self, .inl (List.mem_singleton.1 h)⟩
  | case4 first rest hrest ih =>
    rcases List.mem_cons.1 h with rfl | h
    · exact ⟨first, List.mem_cons_self, .inr rfl⟩
    · obtain ⟨piece, hpiece, hline⟩ := ih h
      exact ⟨piece, List.mem_cons_of_mem first hpiece, hline⟩

theorem LinesClose.ended {pieces : List (List Char)} (h : LinesClose pieces) :
    LinesClose (lines.ended pieces) := by
  fun_induction lines.ended pieces with
  | case1 => exact h
  | case2 last hempty => exact List.Pairwise.nil
  | case3 last hempty => exact h
  | case4 line rest hrest ih =>
    obtain ⟨hline, hpieces⟩ := List.pairwise_cons.1 h
    obtain ⟨next, hnext⟩ := List.exists_mem_of_ne_nil rest fun hnil => hrest (by rw [hnil])
    exact List.pairwise_cons.2 ⟨fun _ _ => (hline next hnext).dropReturn, ih hpieces⟩

/-- The lines of a description whose literals hold no newline are read alone, and every line that
another one follows leaves no literal open. -/
theorem lineCells_eq_map {text : List Char}
    (h : ('\n', Region.literal) ∉ text.zip (classify text)) :
    lineCells text = (lines text).map (cellsFrom none .start) ∧ LinesClose (lines text) := by
  obtain ⟨hcells, hclose⟩ := cellLines_joinLines (splitLines_ne_nil text)
    (fun _ => not_mem_of_mem_splitLines) (by rw [joinLines_splitLines]; exact h)
  rw [joinLines_splitLines] at hcells
  rw [lineCells, hcells]
  exact ⟨zipWith_take_ended (splitLines text), hclose.ended⟩

/-- A line of a text file holds no newline. -/
theorem newline_not_mem_of_mem_lines {text line : List Char} (h : line ∈ lines text) :
    '\n' ∉ line := by
  obtain ⟨piece, hpiece, rfl | rfl⟩ := mem_ended h
  · exact not_mem_of_mem_splitLines hpiece
  · intro hmem
    refine not_mem_of_mem_splitLines hpiece ?_
    rcases dropReturn_eq_or piece with hline | hline
    · rwa [hline] at hmem
    · rw [hline]
      exact List.mem_append_left _ hmem

/-! ## Lines that are put together -/

/-- Lines that are put together are read alone, whatever follows on lines of its own. -/
theorem exists_cellLines_joinLines {lines : List (List Char)}
    (hnewline : ∀ line ∈ lines, '\n' ∉ line) (hclose : LinesClose lines) (rest : List Char) :
    ∃ after, cellLines (joinLines lines ++ '\n' :: rest) =
      lines.map (cellsFrom none .start) ++ after := by
  induction lines with
  | nil => exact ⟨_, rfl⟩
  | cons line lines ih =>
    have hline := hnewline line List.mem_cons_self
    obtain ⟨hcloses, hlater⟩ := List.pairwise_cons.1 hclose
    cases lines with
    | nil =>
      obtain ⟨after, hafter⟩ := exists_cellLines_append_newline line rest
      rw [joinLines_singleton, hafter, cellLines_of_not_mem hline]
      exact ⟨after, rfl⟩
    | cons next lines =>
      obtain ⟨after, hafter⟩ := ih (fun other hother =>
        hnewline other (List.mem_cons_of_mem line hother)) hlater
      rw [joinLines_cons_cons, List.append_assoc, List.cons_append,
        cellLines_append_newline (hcloses next List.mem_cons_self), cellLines_of_not_mem hline,
        hafter]
      exact ⟨after, rfl⟩

/-- A text that leads to the start of a line leaves no literal open before its last newline. -/
theorem closesLiterals_of_after {front : List Char}
    (h : ReadState.start.after none (front ++ ['\n']) = .start) : ClosesLiterals front := by
  have hnext : (some '\n' : Option Char) ≠ some '/' := by decide
  have hquoted := isQuoted_after (ReadState.isQuoted_code true) none front
  rw [ReadState.after_append, List.head?_singleton, Option.some_or,
    ReadState.after_of_ne_slash hnext] at h
  have hstep := isLiteral_step_blank hquoted (c := '\n') (by decide) none
  exact hstep.symm.trans (congrArg ReadState.isLiteral h)

end SoloBuild.Description

namespace SoloBuild.SingleFile

open Text Description

/-! ## The lines of a config -/

/-- The line stays in a config: it is no include, or the one include that stays. -/
def isKeptLine (globalInclude line : List Char) : Bool :=
  !occursIn "#include".toList line || occursIn globalInclude line

theorem filterIncludes_eq (text globalInclude : List Char) :
    filterIncludes text globalInclude =
      joinLines ((lines text).filter (isKeptLine globalInclude)) := rfl

/-- The notice is lines of its own. -/
theorem cellLines_notice_append (text : List Char) :
    ∃ before, cellLines (notice ++ text) = before ++ cellLines text := by
  have happend : ∀ front last : String, (front ++ last).toList = front.toList ++ last.toList :=
    fun _ _ => String.toList_append
  obtain ⟨front, hfront⟩ : ∃ front, notice = front ++ ['\n'] := by
    have hnotice : notice = _ ++ _ := happend _ _
    -- Of its lines only the last one is looked at.
    have hlast : ∀ last : List Char, last.getLast? = some '\n' →
        ∀ front, ∃ more, front ++ last = more ++ ['\n'] := by
      intro last hlast front
      obtain ⟨more, rfl⟩ := List.getLast?_eq_some_iff.1 hlast
      exact ⟨front ++ more, (List.append_assoc front more ['\n']).symm⟩
    rw [hnotice]
    exact hlast _ (by decide +kernel) _
  have hcloses : ClosesLiterals front :=
    closesLiterals_of_after (hfront ▸ (readsAs_notice none).after)
  rw [hfront, List.append_assoc]
  exact ⟨cellLines front, cellLines_append_newline hcloses text⟩

/-- A config has the lines of the description that it keeps, in their order, and every character of
them is in the region that it was in, when no literal of the description holds a newline. -/
theorem cellLines_compose (solution : Document) (name target : String) (s : Settings)
    (h : ('\n', Region.literal) ∉ solution.text.toList.zip (classify solution.text.toList)) :
    let kept := (lineCells solution.text.toList).filter fun line =>
      isKeptLine s.globalInclude.toList (line.map Prod.fst)
    filterIncludes solution.text.toList s.globalInclude.toList =
        joinLines (kept.map (List.map Prod.fst)) ∧
      kept <:+: cellLines (compose solution name target s).toList := by
  intro kept
  obtain ⟨hcells, hclose⟩ := lineCells_eq_map h
  have hkept : kept = ((lines solution.text.toList).filter
      (isKeptLine s.globalInclude.toList)).map (cellsFrom none .start) := by
    show (lineCells solution.text.toList).filter _ = _
    rw [hcells, List.filter_map]
    simp only [Function.comp_def, map_fst_cellsFrom]
  have hnewline : ∀ line ∈ (lines solution.text.toList).filter
      (isKeptLine s.globalInclude.toList), '\n' ∉ line :=
    fun line hline => newline_not_mem_of_mem_lines (List.mem_of_mem_filter hline)
  constructor
  · rw [hkept, List.map_map]
    simp only [Function.comp_def, map_fst_cellsFrom, List.map_id']
    rfl
  · -- What follows the description begins with a newline.
    obtain ⟨after, hafter⟩ := exists_cellLines_joinLines hnewline
      (List.Pairwise.filter _ hclose) (ruleLines name.toList ++ '\n' :: target.toList)
    obtain ⟨before, hbefore⟩ := cellLines_notice_append
      (filterIncludes solution.text.toList s.globalInclude.toList ++
        '\n' :: (ruleLines name.toList ++ '\n' :: target.toList))
    refine ⟨before, after, ?_⟩
    rw [hkept, List.append_assoc, ← hafter, ← filterIncludes_eq, ← hbefore, compose_eq,
      String.toList_append, String.toList_ofList, composeFront, separator]
    simp

/-- An include that goes and a literal that the last line leaves open: the other lines stay comment,
and code with a literal. -/
theorem cellLines_compose_sample :
    let solution : Document := ⟨⟨"proj/s.bff"⟩, "#include 'a'\r\n// it's\r\n.A = 'b"⟩
    ('\n', Region.literal) ∉ solution.text.toList.zip (classify solution.text.toList) ∧
      [cellsIn .comment "// it's".toList,
          cellsIn .code ".A = ".toList ++ cellsIn .literal "'b".toList] <:+:
        cellLines (compose solution "X" "Library('X') \x7b \x7d" {}).toList := by
  intro solution
  have h : ('\n', Region.literal) ∉ solution.text.toList.zip (classify solution.text.toList) := by
    decide +kernel
  have hkept : ((lineCells solution.text.toList).filter fun line =>
      isKeptLine ({} : Settings).globalInclude.toList (line.map Prod.fst)) =
      [cellsIn .comment "// it's".toList,
        cellsIn .code ".A = ".toList ++ cellsIn .literal "'b".toList] := by
    decide +kernel
  rw [← hkept]
  exact ⟨h, (cellLines_compose solution "X" "Library('X') \x7b \x7d" {} h).2⟩

end SoloBuild.SingleFile
