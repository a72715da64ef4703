import SoloBuild.Launcher
import SoloBuild.Proofs.RewriteLines
import SoloBuild.Proofs.SpacedWords

/-!
# Launcher scripts

A launcher script quotes the executable, gives it options, and passes on its own arguments. Reading
it finds the first quoted text, and takes the words with a dash that are left when this text and the
passed arguments are cut out. Nothing that is cut out joins its neighbours to an option: behind each
option blanks follow. So a script of this form gives back what it was written from.

## Key results

- `discoverExecutable?_quoted`: the first text in quotes is found
- `replaceAll_optionsText`: options stay when the passed arguments are cut out
- `optionsOf_text`: the options of a script
- `read_script`: a script is read as it was written
-/

namespace SoloBuild.Launcher

open Text

/-- What a launcher script is written from: text without quotes and dashes around the executable in
double quotes, its options, and the arguments that are passed on. -/
structure Script where
  before : List Char
  executable : List Char
  options : List SpacedOption
  gap : Gap
  after : List Char
  before_plain : '"' ∉ before ∧ '-' ∉ before
  executable_quotable : '"' ∉ executable ∧ '\n' ∉ executable
  options_plain : ∀ o ∈ options, '"' ∉ o.word ∧ ¬ forwardedArguments <:+: o.word
  after_plain : '"' ∉ after ∧ '-' ∉ after

namespace Script

/-- The part of a script behind its executable. -/
def rest (s : Script) : List Char :=
  optionsText s.options ++ (s.gap.text ++ (forwardedArguments ++ s.after))

/-- The text of a script. -/
def text (s : Script) : List Char :=
  s.before ++ (('"' :: (s.executable ++ ['"'])) ++ s.rest)

/-- The options of a script, without the blanks before them. -/
def optionWords (s : Script) : List (List Char) :=
  s.options.map SpacedOption.word

end Script

/-! ## The executable -/

theorem discoverExecutable?_cons {c : Char} (hc : c ≠ '"') (cs : List Char) :
    discoverExecutable? (c :: cs) = discoverExecutable? cs := by
  rw [discoverExecutable?, discoverExecutable?, splitLines, splitLines, splitWhere]
  split
  -- An empty line quotes nothing.
  · rfl
  · cases hcs : splitWhere (· == '\n') cs with
    | nil => exact absurd hcs (splitWhere_ne_nil _ cs)
    | cons line lines =>
      have hline : quotedToken? (c :: line) = quotedToken? line := by
        rw [quotedToken?, quotedToken?, upTo?, if_neg hc]
        cases upTo? '"' line <;> rfl
      rw [List.findSome?_cons, List.findSome?_cons, hline]

/-- Nothing is quoted where no double quote stands. -/
theorem discoverExecutable?_append {before : List Char} (h : '"' ∉ before) (text : List Char) :
    discoverExecutable? (before ++ text) = discoverExecutable? text := by
  induction before with
  | nil => rfl
  | cons c before ih =>
    rw [List.mem_cons, not_or] at h
    rw [List.cons_append, discoverExecutable?_cons (Ne.symm h.1), ih h.2]

/-- The line that a text without line breaks begins. -/
theorem exists_splitLines_append {line : List Char} (h : '\n' ∉ line) (text : List Char) :
    ∃ first lines, splitLines (line ++ text) = (line ++ first) :: lines := by
  induction line with
  | nil => exact List.exists_cons_of_ne_nil (splitLines_ne_nil text)
  | cons c line ih =>
    rw [List.mem_cons, not_or] at h
    obtain ⟨first, lines, heq⟩ := ih h.2
    have hc : (c == '\n') = false := beq_eq_false_iff_ne.2 (Ne.symm h.1)
    rw [splitLines] at heq
    exact ⟨first, lines, by simp [splitLines, splitWhere, hc, heq]⟩

/-- The first text in quotes is found. -/
theorem discoverExecutable?_quoted {executable : List Char} (hquote : '"' ∉ executable)
    (hline : '\n' ∉ executable) (rest : List Char) :
    discoverExecutable? (('"' :: (executable ++ ['"'])) ++ rest) = some executable := by
  have hnewline : '\n' ∉ '"' :: (executable ++ ['"']) := by simp [hline]
  obtain ⟨first, lines, heq⟩ := exists_splitLines_append hnewline rest
  have htoken : quotedToken? (('"' :: (executable ++ ['"'])) ++ first) = some executable := by
    simp [quotedToken?, upTo?, upTo?_append_cons hquote]
  rw [discoverExecutable?, heq, List.findSome?_cons, htoken]

/-! ## The options -/

/-- Cutting out the passed arguments leaves blanks as they are. -/
theorem replaceAll_gap (gap : Gap) (xs ys : List Char) :
    replaceAll forwardedArguments [] (xs ++ (gap.text ++ ys)) =
      replaceAll forwardedArguments [] xs ++
        (gap.text ++ replaceAll forwardedArguments [] ys) := by
  obtain ⟨b, blanks, heq, hb, hblanks⟩ := gap.exists_cons
  -- The passed arguments hold no blank, so they stand on one side of this one.
  have hmark : b ∉ forwardedArguments := by
    intro hmem
    have hnone : ∀ c ∈ forwardedArguments, isBlank c = false := by decide
    cases hb.symm.trans (hnone b hmem)
  have hrest : '%' ∉ blanks := fun hmem => by cases hblanks '%' hmem
  rw [heq, List.cons_append, List.cons_append, forwardedArguments, replaceAll_append_cons hmark,
    replaceAll_append_of_not_mem hrest]

/-- Options stay as they are when the passed arguments are cut out. -/
theorem replaceAll_optionsText {options : List SpacedOption}
    (h : ∀ o ∈ options, ¬ forwardedArguments <:+: o.word) (xs : List Char) (gap : Gap)
    (ys : List Char) :
    replaceAll forwardedArguments [] (xs ++ (optionsText options ++ (gap.text ++ ys))) =
      replaceAll forwardedArguments [] xs ++
        (optionsText options ++ (gap.text ++ replaceAll forwardedArguments [] ys)) := by
  induction options generalizing xs with
  | nil => exact replaceAll_gap gap xs ys
  | cons o options ih =>
    rw [List.forall_mem_cons] at h
    have hword : replaceAll forwardedArguments [] o.word = o.word :=
      replaceAll_of_not_occursIn [] (eq_false_of_ne_true (mt occursIn_iff.1 h.1))
    have hrest := ih h.2 o.word
    rw [hword] at hrest
    rw [optionsText, List.flatMap_cons, SpacedOption.text, List.append_assoc, List.append_assoc,
      replaceAll_gap, ← optionsText, hrest]
    simp only [List.append_assoc]

/-- A text without dashes gives no options. -/
theorem filter_words_of_not_mem {cs : List Char} (h : '-' ∉ cs) :
    (words cs).filter (fun word => word.head? == some '-') = [] := by
  rw [List.filter_eq_nil_iff]
  intro word hword hhead
  have hdash : '-' ∈ word := List.mem_of_head? (beq_iff_eq.1 hhead)
  exact h (mem_of_mem_words hword hdash)

/-- Cutting out the passed arguments brings in no dash. -/
theorem dash_not_mem_replaceAll {cs : List Char} (h : '-' ∉ cs) :
    '-' ∉ replaceAll forwardedArguments [] cs := fun hmem =>
  (mem_replaceAll hmem).elim h List.not_mem_nil

namespace Script

variable (s : Script)

/-- Behind the executable nothing is quoted. -/
theorem quote_not_mem_rest : '"' ∉ s.rest := by
  have hoptions : '"' ∉ optionsText s.options :=
    not_mem_optionsText rfl fun o ho => (s.options_plain o ho).1
  simp only [rest, List.mem_append, not_or]
  exact ⟨hoptions, s.gap.not_mem rfl, by decide, s.after_plain.1⟩

/-- Cutting out the executable leaves what stands around it. -/
theorem replaceAll_executable :
    replaceAll ('"' :: (s.executable ++ ['"'])) [] s.text = s.before ++ s.rest := by
  have hrest : replaceAll ('"' :: (s.executable ++ ['"'])) [] s.rest = s.rest := by
    simpa [replaceAll, replaceFrom] using replaceAll_append_of_not_mem s.quote_not_mem_rest [] []
  rw [text, replaceAll_append_of_not_mem s.before_plain.1, replaceAll_append_self, hrest,
    List.nil_append]

/-- Cutting out the passed arguments leaves the options. -/
theorem replaceAll_forwardedArguments :
    replaceAll forwardedArguments [] (s.before ++ s.rest) =
      replaceAll forwardedArguments [] s.before ++
        (optionsText s.options ++ (s.gap.text ++ replaceAll forwardedArguments [] s.after)) := by
  have hafter : replaceAll forwardedArguments [] (forwardedArguments ++ s.after) =
      replaceAll forwardedArguments [] s.after := replaceAll_append_self '%' ['*'] [] s.after
  rw [rest, replaceAll_optionsText fun o ho => (s.options_plain o ho).2, hafter]

/-- The options of a script are those it was written from. -/
theorem optionsOf_text : optionsOf s.text s.executable = s.optionWords := by
  have hkept : s.optionWords.filter (fun word => word.head? == some '-') = s.optionWords := by
    rw [List.filter_eq_self]
    intro word hword
    obtain ⟨o, -, rfl⟩ := List.mem_map.1 hword
    rfl
  rw [optionsOf, List.cons_append, s.replaceAll_executable, s.replaceAll_forwardedArguments,
    words_optionsText, List.filter_append, List.filter_append,
    filter_words_of_not_mem (dash_not_mem_replaceAll s.before_plain.2),
    filter_words_of_not_mem (dash_not_mem_replaceAll s.after_plain.2), List.nil_append,
    List.append_nil]
  exact hkept

theorem discoverExecutable?_text : discoverExecutable? s.text = some s.executable := by
  rw [text, discoverExecutable?_append s.before_plain.1,
    discoverExecutable?_quoted s.executable_quotable.1 s.executable_quotable.2]

end Script

/-- A script is read as it was written: its executable, resolved against the directory, and its
options in order, which go before all other arguments of a build. And a text is no launcher script
exactly when no line of it holds two double quotes. -/
theorem read_script (path dir : Path) :
    (∀ s : Script, ∃ launcher, read path (String.ofList s.text) dir = .ok launcher ∧
      launcher.executable = dir.join ⟨String.ofList s.executable⟩ ∧
      launcher.options = s.optionWords.map String.ofList ∧
      ∀ (targets : List String) (clean : Bool) (config : Path),
        selectionArguments launcher.options targets clean config =
          s.optionWords.map String.ofList ++ ((if clean then ["-clean"] else []) ++
            (targets ++ ["-ide", "-monitor", "-config", config.text]))) ∧
      ∀ (text : String) (reason : LauncherError), read path text dir = .error reason ↔
        reason = .noExecutable path ∧ ∀ line ∈ splitLines text.toList, line.count '"' ≤ 1 := by
  constructor
  · intro s
    refine ⟨{
      executable := dir.join ⟨String.ofList s.executable⟩
      options := s.optionWords.map String.ofList }, ?_, rfl, rfl, ?_⟩
    · rw [read, String.toList_ofList, s.discoverExecutable?_text]
      dsimp only
      rw [s.optionsOf_text]
    · intro targets clean config
      rw [selectionArguments, List.append_assoc, List.append_assoc]
  · intro text reason
    rw [← discoverExecutable?_eq_none_iff, read]
    cases discoverExecutable? text.toList with
    | none => simp [eq_comm]
    | some executable => simp

/-- An executable with a dash in its name, behind a percent sign and before options over two lines,
one of which ends with a percent sign. -/
def twoLines : Script where
  before := "rem 50%\n@".toList
  executable := "tools/f -x%*".toList
  options := [⟨⟨['\n'], by decide, by decide⟩, "cache%".toList, by decide⟩,
    ⟨⟨[' ', '\t'], by decide, by decide⟩, "-dist=*".toList, by decide⟩]
  gap := ⟨['\r', '\n'], by decide, by decide⟩
  after := "\n".toList
  before_plain := by decide
  executable_quotable := by decide
  options_plain := by decide +kernel
  after_plain := by decide

theorem read_script_twoLines :
    ∃ launcher, read ⟨"/s/F.bat"⟩
        "rem 50%\n@\"tools/f -x%*\"\n-cache% \t--dist=*\r\n%*\n" ⟨"/s"⟩ = .ok launcher ∧
      launcher.executable = ⟨"/s/tools/f -x%*"⟩ ∧ launcher.options = ["-cache%", "--dist=*"] := by
  have htext : String.ofList twoLines.text =
      "rem 50%\n@\"tools/f -x%*\"\n-cache% \t--dist=*\r\n%*\n" := by
    decide +kernel
  have hpath : Path.join ⟨"/s"⟩ ⟨String.ofList twoLines.executable⟩ = ⟨"/s/tools/f -x%*"⟩ := by
    decide +kernel
  have hwords : twoLines.optionWords.map String.ofList = ["-cache%", "--dist=*"] := by
    decide +kernel
  obtain ⟨launcher, hread, hexecutable, hoptions, -⟩ := (read_script ⟨"/s/F.bat"⟩ ⟨"/s"⟩).1 twoLines
  rw [htext] at hread
  exact ⟨launcher, hread, hexecutable.trans hpath, hoptions.trans hwords⟩

end SoloBuild.Launcher
