import SoloBuild.Proofs.ComposedLines
import SoloBuild.Proofs.NameLiteral

/-!
# The includes that stay in a config

A line is an include when its code begins, behind blanks, with `#include` and a file name in quotes.
Of the includes of a description only the one of the global settings should stay in a config, and
every line that is no include should stay too. Which lines stay is decided by two searches, for
`#include` and for the name of the global settings, in all characters of a line. They see neither
where the file name ends nor what is code.

## Key results

- `map_fst_lineCells`: the lines of any text, with their regions
- `IsInclude.unique`: an include names one file
- `IsInclude.isKeptLine_eq`: an include is kept for its file name, or for what stands behind it
- `filterIncludes_lines`: the lines that stay against their purpose, and those that are lost
-/

namespace SoloBuild.Description

open Text

/-! ## The lines of any text -/

/-- Cutting cells at newlines cuts their characters there. -/
theorem map_fst_splitOnP (cells : List Cell) :
    (cells.splitOnP isNewline).map (List.map Prod.fst) = splitLines (cells.map Prod.fst) := by
  induction cells with
  | nil => rfl
  | cons cell cells ih =>
    rw [splitLines] at ih ⊢
    rw [List.splitOnP_cons_eq_if_modifyHead, List.map_cons, splitWhere, ← ih]
    by_cases hnewline : isNewline cell = true
    · have hchar : (cell.1 == '\n') = true := hnewline
      rw [if_pos hnewline, if_pos hchar]
      rfl
    · have hchar : ¬ (cell.1 == '\n') = true := hnewline
      obtain ⟨piece, pieces, hpieces⟩ :=
        List.exists_cons_of_ne_nil (List.splitOnP_ne_nil isNewline cells)
      rw [if_neg hnewline, if_neg hchar, hpieces]
      rfl

theorem map_fst_cellLines (text : List Char) :
    (cellLines text).map (List.map Prod.fst) = splitLines text := by
  rw [cellLines_eq, map_fst_splitOnP, map_fst_cellsFrom]

/-- A line without its carriage return is the front of what it was. -/
theorem take_length_dropReturn (line : List Char) :
    line.take (dropReturn line).length = dropReturn line := by
  rcases dropReturn_eq_or line with hline | hline
  · rw [hline, List.take_length]
  · generalize dropReturn line = front at hline ⊢
    rw [hline, List.take_left]

/-- Pieces of cells, cut as the lines of their characters are. -/
theorem map_fst_zipWith_ended (pieces : List (List Cell)) :
    (List.zipWith (fun line cells => cells.take line.length)
        (lines.ended (pieces.map (List.map Prod.fst))) pieces).map (List.map Prod.fst) =
      lines.ended (pieces.map (List.map Prod.fst)) := by
  induction pieces with
  | nil => rfl
  | cons piece pieces ih =>
    cases pieces with
    | nil =>
      rw [List.map_singleton, lines.ended]
      split_ifs with hempty
      · rfl
      · simp
    | cons next pieces =>
      rw [List.map_cons] at ih
      rw [List.map_cons, List.map_cons, lines.ended, List.zipWith_cons_cons, List.map_cons, ih,
        List.map_take, take_length_dropReturn]
      exact List.cons_ne_nil _ _

/-- The lines with their regions hold the characters of the lines, wherever literals end. -/
theorem map_fst_lineCells (text : List Char) :
    (lineCells text).map (List.map Prod.fst) = lines text := by
  rw [lineCells, lines, ← map_fst_cellLines, map_fst_zipWith_ended]

end SoloBuild.Description

namespace SoloBuild.SingleFile

open Text Description

/-! ## Includes -/

/-- The line is an include of the file: blanks, `#include` and blanks in code, then the name of the
file as a literal. Behind the name stands `rest`. -/
def IsInclude (file : List Char) (rest line : List Cell) : Prop :=
  ∃ indent gap quote, (∀ c ∈ indent, isBlank c = true) ∧ (∀ c ∈ gap, isBlank c = true) ∧
    isQuote quote = true ∧ Unclosed quote file ∧ trailingCarets file % 2 = 0 ∧
    line = cellsIn .code (indent ++ ("#include".toList ++ gap)) ++
      (cellsIn .literal (quote :: (file ++ [quote])) ++ rest)

/-- The line belongs in a config: it is no include, or it includes the global settings. -/
def Belongs (globalInclude : List Char) (line : List Cell) : Prop :=
  ∀ file rest, IsInclude file rest line → file = globalInclude

namespace IsInclude

variable {file : List Char} {rest line : List Cell}

/-- The characters of an include. -/
theorem chars (h : IsInclude file rest line) :
    ∃ indent gap quote, (∀ c ∈ indent, isBlank c = true) ∧ (∀ c ∈ gap, isBlank c = true) ∧
      isQuote quote = true ∧ Unclosed quote file ∧ trailingCarets file % 2 = 0 ∧
      line.map Prod.fst = indent ++ ("#include".toList ++
        (gap ++ quote :: (file ++ quote :: rest.map Prod.fst))) := by
  obtain ⟨indent, gap, quote, hindent, hgap, hquote, hfile, hcloses, rfl⟩ := h
  refine ⟨indent, gap, quote, hindent, hgap, hquote, hfile, hcloses, ?_⟩
  simp only [List.map_append, map_fst_cellsIn, List.append_assoc, List.cons_append,
    List.nil_append]

/-- Behind its blanks an include begins with `#include`. -/
theorem prefix_skipBlanks (h : IsInclude file rest line) :
    "#include".toList <+: skipBlanks (line.map Prod.fst) := by
  obtain ⟨indent, gap, quote, hindent, -, -, -, -, hchars⟩ := h.chars
  have hword : "#include".toList = '#' :: "include".toList := by simp
  rw [hchars, hword, List.cons_append, skipBlanks_append hindent (by decide), ← List.cons_append]
  exact List.prefix_append _ _

/-- An include names one file. -/
theorem unique {file' : List Char} {rest' : List Cell} (h : IsInclude file rest line)
    (h' : IsInclude file' rest' line) : file = file' := by
  obtain ⟨indent, gap, quote, hindent, hgap, hquote, hfile, hcloses, hchars⟩ := h.chars
  obtain ⟨indent', gap', quote', hindent', hgap', hquote', hfile', hcloses', hchars'⟩ := h'.chars
  have hword : "#include".toList = '#' :: "include".toList := by simp
  have hmark : (!isBlank '#') = true := by decide
  have hblanks : ∀ bs : List Char, (∀ b ∈ bs, isBlank b = true) → ∀ b ∈ bs, (!isBlank b) = false :=
    fun bs hbs b hb => by rw [hbs b hb]; rfl
  have hquotes : ∀ q : Char, isQuote q = true → (!isBlank q) = true :=
    fun q hq => by rw [isBlank_eq_false_of_isQuote hq]; rfl
  -- Both ends of the blanks are characters of another kind: the mark, and the opening quote.
  rw [hchars, hword, List.cons_append, List.cons_append] at hchars'
  obtain ⟨-, -, hbehind⟩ := append_cons_inj hchars' (hblanks indent hindent)
    (hblanks indent' hindent') hmark hmark
  obtain ⟨-, rfl, hliteral⟩ := append_cons_inj (List.append_cancel_left hbehind)
    (hblanks gap hgap) (hblanks gap' hgap') (hquotes quote hquote) (hquotes quote' hquote')
  exact eq_of_unclosed hliteral hfile hfile' hcloses hcloses'

/-- An include holds what it looks for in its file name or behind it, when that can be no part of
blanks, of `#include` or of quotes. -/
theorem occursIn_eq (h : IsInclude file rest line) {c : Char} {more : List Char}
    (hblank : isBlank c = false) (hword : c ∉ "#include".toList)
    (hquotes : ∀ q ∈ c :: more, isQuote q = false) :
    occursIn (c :: more) (line.map Prod.fst) =
      (occursIn (c :: more) file || occursIn (c :: more) (rest.map Prod.fst)) := by
  obtain ⟨indent, gap, quote, hindent, hgap, hquote, -, -, hchars⟩ := h.chars
  have hnot : ∀ bs : List Char, (∀ b ∈ bs, isBlank b = true) → c ∉ bs := by
    intro bs hbs hmem
    cases hblank.symm.trans (hbs c hmem)
  have hout : quote ∉ c :: more := by
    intro hmem
    cases (hquotes quote hmem).symm.trans hquote
  rw [hchars, occursIn_append_of_not_mem (hnot indent hindent), occursIn_append_of_not_mem hword,
    occursIn_append_of_not_mem (hnot gap hgap), ← List.nil_append (quote :: _),
    occursIn_append_cons hout, occursIn_append_cons hout]
  rfl

/-- An include is kept for its file name, or for what stands behind it. -/
theorem isKeptLine_eq (h : IsInclude file rest line) {c : Char} {more : List Char}
    (hblank : isBlank c = false) (hword : c ∉ "#include".toList)
    (hquotes : ∀ q ∈ c :: more, isQuote q = false) :
    isKeptLine (c :: more) (line.map Prod.fst) =
      (occursIn (c :: more) file || occursIn (c :: more) (rest.map Prod.fst)) := by
  have hinclude : occursIn "#include".toList (line.map Prod.fst) = true := by
    obtain ⟨indent, gap, quote, -, -, -, -, -, hchars⟩ := h.chars
    rw [hchars, occursIn_iff]
    exact ⟨indent, _, List.append_assoc _ _ _⟩
  rw [isKeptLine, hinclude, h.occursIn_eq hblank hword hquotes]
  rfl

end IsInclude

/-- A line that is no include, or the one of the global settings. -/
theorem belongs_iff {globalInclude : List Char} {line : List Cell} :
    Belongs globalInclude line ↔
      (¬ ∃ file rest, IsInclude file rest line) ∨ ∃ rest, IsInclude globalInclude rest line := by
  constructor
  · intro h
    by_cases hinclude : ∃ file rest, IsInclude file rest line
    · obtain ⟨file, rest, hline⟩ := hinclude
      exact .inr ⟨rest, h file rest hline ▸ hline⟩
    · exact .inl hinclude
  · rintro (hnone | ⟨rest, hline⟩) file rest' hline'
    · exact absurd ⟨file, rest', hline'⟩ hnone
    · exact hline'.unique hline

/-! ## The includes that stay -/

/-- The lines that stay are looked for among the lines with their regions. -/
theorem filterIncludes_eq_lineCells (text globalInclude : List Char) :
    filterIncludes text globalInclude =
      joinLines (((lineCells text).filter fun line =>
        isKeptLine globalInclude (line.map Prod.fst)).map (List.map Prod.fst)) := by
  rw [filterIncludes_eq, ← map_fst_lineCells, List.filter_map]
  rfl

theorem isKeptLine_eq_false_iff {globalInclude line : List Char} :
    isKeptLine globalInclude line = false ↔
      "#include".toList <:+: line ∧ ¬ globalInclude <:+: line := by
  rw [isKeptLine, Bool.or_eq_false_iff, Bool.not_eq_false', occursIn_iff, ← Bool.not_eq_true,
    occursIn_iff]

/-- By default an include is kept when its file name holds the one of the global settings, or what
stands behind it does. -/
theorem IsInclude.isKeptLine_iff {file : List Char} {rest line : List Cell}
    (h : IsInclude file rest line) :
    isKeptLine ({} : Settings).globalInclude.toList (line.map Prod.fst) = true ↔
      ({} : Settings).globalInclude.toList <:+: file ∨
        ({} : Settings).globalInclude.toList <:+: rest.map Prod.fst := by
  have hname : ({} : Settings).globalInclude.toList = 'g' :: "lobalsettings.bff".toList := by
    decide
  rw [hname, h.isKeptLine_eq (by decide) (by decide) (by decide), Bool.or_eq_true, occursIn_iff,
    occursIn_iff]

/-- By default a config keeps of a description the lines that belong in it, with two exceptions. The
include of another file stays when its name, or what stands behind it, holds the name of the global
settings; and a line that is no include is lost when `#include` stands anywhere in it, unless the
name of the global settings does too. -/
theorem filterIncludes_lines (text : List Char) :
    let globalInclude := ({} : Settings).globalInclude.toList
    let keeps := fun line : List Cell => isKeptLine globalInclude (line.map Prod.fst)
    filterIncludes text globalInclude =
        joinLines (((lineCells text).filter keeps).map (List.map Prod.fst)) ∧
      ∀ line : List Cell,
        (keeps line = true ∧ ¬ Belongs globalInclude line ↔
          ∃ file rest, IsInclude file rest line ∧ file ≠ globalInclude ∧
            (globalInclude <:+: file ∨ globalInclude <:+: rest.map Prod.fst)) ∧
        (keeps line = false ∧ Belongs globalInclude line ↔
          (¬ ∃ file rest, IsInclude file rest line) ∧
            "#include".toList <:+: line.map Prod.fst ∧
              ¬ globalInclude <:+: line.map Prod.fst) := by
  intro globalInclude keeps
  refine ⟨filterIncludes_eq_lineCells text globalInclude, fun line => ⟨?stays, ?lost⟩⟩
  case stays =>
    constructor
    · rintro ⟨hkept, hother⟩
      simp only [Belongs, not_forall] at hother
      obtain ⟨file, rest, hinclude, hfile⟩ := hother
      exact ⟨file, rest, hinclude, hfile, hinclude.isKeptLine_iff.1 hkept⟩
    · rintro ⟨file, rest, hinclude, hfile, hmention⟩
      exact ⟨hinclude.isKeptLine_iff.2 hmention, fun hbelongs => hfile (hbelongs file rest hinclude)⟩
  case lost =>
    constructor
    · rintro ⟨hdropped, hbelongs⟩
      rcases belongs_iff.1 hbelongs with hnone | ⟨rest, hglobal⟩
      · exact ⟨hnone, isKeptLine_eq_false_iff.1 hdropped⟩
      · -- The include of the global settings is kept for its name.
        have hkept := hglobal.isKeptLine_iff.2 (.inl (List.infix_refl globalInclude))
        cases hkept.symm.trans hdropped
    · rintro ⟨hnone, hmentions⟩
      exact ⟨isKeptLine_eq_false_iff.2 hmentions, belongs_iff.2 (.inl hnone)⟩

/-- The include of another file stays for the comment behind it, and another one for a longer name;
a line that holds `#include` in a literal is lost. -/
theorem filterIncludes_keeps_other :
    let globalInclude := ({} : Settings).globalInclude.toList
    let text := joinLines ["#include \"a.bff\" // not globalsettings.bff".toList,
      "#include 'globalsettings.bff.old'".toList, ".Note = 'no #include here'".toList]
    ∃ commented longer noted, lineCells text = [commented, longer, noted] ∧
      filterIncludes text globalInclude =
        joinLines [commented.map Prod.fst, longer.map Prod.fst] ∧
      ¬ Belongs globalInclude commented ∧ ¬ Belongs globalInclude longer ∧
      Belongs globalInclude noted := by
  intro globalInclude text
  refine ⟨cellsIn .code "#include ".toList ++ (cellsIn .literal "\"a.bff\"".toList ++
      (cellsIn .code " ".toList ++ cellsIn .comment "// not globalsettings.bff".toList)),
    cellsIn .code "#include ".toList ++ cellsIn .literal "'globalsettings.bff.old'".toList,
    cellsIn .code ".Note = ".toList ++ cellsIn .literal "'no #include here'".toList,
    by decide +kernel, by decide +kernel, fun hbelongs => ?commented, fun hbelongs => ?longer, ?noted⟩
  case commented =>
    have hinclude : IsInclude "a.bff".toList (cellsIn .code " ".toList ++
        cellsIn .comment "// not globalsettings.bff".toList) _ :=
      ⟨[], [' '], '"', by decide, by decide, rfl, unclosed_of_not_mem (by decide), by decide, rfl⟩
    exact absurd (hbelongs _ _ hinclude) (by decide)
  case longer =>
    have hinclude : IsInclude "globalsettings.bff.old".toList [] _ :=
      ⟨[], [' '], '\'', by decide, by decide, rfl, unclosed_of_not_mem (by decide), by decide, rfl⟩
    exact absurd (hbelongs _ _ hinclude) (by decide)
  case noted =>
    intro file rest hinclude
    exact absurd hinclude.prefix_skipBlanks (by decide)

end SoloBuild.SingleFile
