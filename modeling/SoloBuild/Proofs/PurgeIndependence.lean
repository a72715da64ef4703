import SoloBuild.Proofs.PurgeReading
import SoloBuild.Proofs.RewriteFields

/-!
# Whether the input decides what is purged

The directory to purge is read from the text of the target, and that text holds the path of the
input. The line of the input is read like any other: when no field before it names a directory, and
the path mentions the field and holds the segment, the path decides which directory is removed. So
the directory depends on the declaration alone only where the declaration names it before.

## Key results

- `targetText_eq`: the text of a target around the line of its input
- `intermediateDir?_ofNode`: the fields before the input, the input, the fields after it
- `intermediateDir?_independent_iff`: when the directory is the same for all inputs
-/

namespace SoloBuild.SingleFile

open Text Description

/-! ## The line of the input -/

/-- The text before the literal of the input. -/
def inputField : List Char :=
  "    ".toList ++ ".CompilerInputFiles = ".toList

/-- The line that names the input, with its line break. -/
def inputLine (eol : List Char) (input : Path) : List Char :=
  inputField ++ quote input.text.toList ++ eol

/-- The body that is kept, before and after the place of the added fields. -/
def bodyParts (node : TargetNode) (s : Settings) : List Char × List Char :=
  let body := joinLines (keptLines s node.bodyLines)
  match splitAtLast '\x7d' body with
  | some (front, back) => (trimEnd front, back)
  | none => (body, [])

/-- The text of a target before the line of its input. -/
def beforeInputLine (node : TargetNode) (s : Settings) : List Char :=
  headerText s ++ (bodyParts node s).1 ++ lineBreak node.body ++ lineBreak node.body

/-- The added fields after the line of the input. -/
def addedLines (eol : List Char) : List Char :=
  "    ".toList ++ ".AllowCaching = false".toList ++ eol ++
    ("    ".toList ++ ".AllowDistribution = false".toList ++ eol)

/-- The text of a target after the line of its input. -/
def afterInputLine (node : TargetNode) (s : Settings) : List Char :=
  addedLines (lineBreak node.body) ++ (bodyParts node s).2

theorem injectedFields_eq_inputLine (eol : List Char) (input : Path) :
    injectedFields eol input = eol ++ eol ++ (inputLine eol input ++ addedLines eol) := by
  unfold injectedFields inputLine inputField addedLines
  -- What the texts of the fields are does not matter here.
  generalize "    ".toList = indent
  generalize ".CompilerInputFiles = ".toList = files
  generalize ".AllowCaching = false".toList = caching
  generalize ".AllowDistribution = false".toList = distribution
  simp only [List.append_assoc]

variable (node : TargetNode) (s : Settings) (input : Path) (projectDir : Path)

theorem insertFields_eq (fields : List Char) :
    insertFields fields (joinLines (keptLines s node.bodyLines)) =
      (bodyParts node s).1 ++ fields ++ (bodyParts node s).2 := by
  rw [insertFields, bodyParts]
  generalize joinLines (keptLines s node.bodyLines) = body
  cases splitAtLast '\x7d' body with
  | some parts => rfl
  | none => exact (List.append_nil _).symm

/-- The input stands on a line of its own, and the rest of the text does not depend on it. -/
theorem targetText_eq :
    targetText node input s = beforeInputLine node s ++
      (inputLine (lineBreak node.body) input ++ afterInputLine node s) := by
  rw [targetText, insertFields_eq, injectedFields_eq_inputLine, beforeInputLine, afterInputLine]
  simp only [List.append_assoc]

/-- The fields before the input come first, then the input, then the fields after it. -/
theorem intermediateDir?_ofNode :
    intermediateDir? (Target.ofNode node input s).text.toList projectDir s =
      (intermediateDir? (beforeInputLine node s) projectDir s).or
        ((intermediateDir? (inputLine (lineBreak node.body) input) projectDir s).or
          (intermediateDir? (afterInputLine node s) projectDir s)) := by
  obtain ⟨indent, -, hbreak⟩ := exists_lineBreak_eq node.body
  obtain ⟨front, hfront⟩ : ∃ front, beforeInputLine node s = front ++ ['\n'] := by
    rw [beforeInputLine, hbreak]
    exact ⟨_, (List.append_assoc _ indent ['\n']).symm⟩
  obtain ⟨line, hline⟩ : ∃ line, inputLine (lineBreak node.body) input = line ++ ['\n'] := by
    rw [inputLine, hbreak]
    exact ⟨_, (List.append_assoc _ indent ['\n']).symm⟩
  have htext : (Target.ofNode node input s).text.toList =
      front ++ '\n' :: (line ++ '\n' :: afterInputLine node s) := by
    rw [Target.ofNode, String.toList_ofList, targetText_eq, hfront, hline]
    simp only [List.append_assoc, List.singleton_append]
  rw [htext, intermediateDir?_append_newline front, intermediateDir?_append_newline line, hfront,
    hline]

/-! ## Inputs that name no directory, and inputs that do -/

variable {s} {projectDir} {input}

/-- A line before a line break is one line, and the line break goes. -/
theorem lines_append_lineBreak {front : List Char} {c : Char} (hnewline : '\n' ∉ front ++ [c])
    (hreturn : c ≠ '\r') (body : List Char) :
    lines (front ++ [c] ++ lineBreak body) = [front ++ [c]] := by
  rcases lineBreak_cases body with h | h
  · rw [h, lines_concat_newline, splitLines_of_not_mem hnewline, List.map_singleton,
      dropReturn_concat, if_neg hreturn]
  · have hbreak : front ++ [c] ++ ['\r', '\n'] = (front ++ [c] ++ ['\r']) ++ ['\n'] := by simp
    rw [h, hbreak, lines_concat_newline, splitLines_of_not_mem (by simpa using hnewline),
      List.map_singleton, dropReturn_concat, if_pos rfl]

theorem not_mem_inputField {c : Char} (h : c = '\'' ∨ c = '\n') : c ∉ inputField := by
  rcases h with rfl | rfl <;> decide +kernel

/-- The input stands on one line when its path holds no newline, and what is read there is read from
its literal. -/
theorem intermediateDir?_inputLine (body : List Char) (h : '\n' ∉ escape input.text.toList) :
    intermediateDir? (inputLine (lineBreak body) input) projectDir s =
      (if occursIn s.intermediateField.toList (inputField ++ quote input.text.toList) then
          segmentFront? s.channelSegment (escape input.text.toList ++ ['\''])
        else none).map fun value => projectDir.join
          ⟨String.ofList (value.map fun c => if c = s.pathSeparator then '/' else c)⟩ := by
  have hlines : lines (inputLine (lineBreak body) input) =
      [inputField ++ quote input.text.toList] := by
    have hquote : inputField ++ quote input.text.toList =
        inputField ++ '\'' :: escape input.text.toList ++ ['\''] := by
      simp [quote]
    rw [inputLine, hquote]
    exact lines_append_lineBreak (by simp [not_mem_inputField, h]) (by decide) body
  have hvalue : channelDirectory? s.channelSegment (inputField ++ quote input.text.toList) =
      segmentFront? s.channelSegment (escape input.text.toList ++ ['\'']) := by
    rw [quote, List.cons_append, channelDirectory?,
      upTo?_append_cons (not_mem_inputField (.inl rfl))]
    rfl
  rw [intermediateDir?, hlines, ← hvalue]
  split
  · rename_i hfield
    simp [hfield]
  · rename_i hfield
    simp [hfield]

/-- The empty path names no directory: the segment does not fit before a single quote. -/
theorem intermediateDir?_inputLine_empty (body : List Char) :
    intermediateDir? (inputLine (lineBreak body) ⟨""⟩) projectDir s = none := by
  have hquote : segmentFront? s.channelSegment (escape "".toList ++ ['\'']) = none := by
    rw [segmentFront?_eq_none_iff]
    intro hahead
    simpa [Settings.channelSegment, escape] using hahead.length_lt
  rw [intermediateDir?_inputLine body (by simp [escape]), hquote]
  split <;> rfl

theorem escape_of_plain {value : List Char} (h : ∀ c ∈ value, isEscaped c = false) :
    escape value = value := by
  induction value with
  | nil => rfl
  | cons c cs ih =>
    rw [escape, h c List.mem_cons_self, ih fun d hd => h d (List.mem_cons_of_mem c hd)]
    rfl

/-- An input that mentions the field and ends with the segment names a directory. -/
theorem intermediateDir?_inputLine_of_plain (body : List Char) {value : List Char}
    (hplain : ∀ c ∈ value ++ s.channelSegment, isEscaped c = false ∧ c ≠ '\n')
    (hfield : s.intermediateField.toList <:+: value ++ s.channelSegment) :
    intermediateDir? (inputLine (lineBreak body) ⟨String.ofList (value ++ s.channelSegment)⟩)
        projectDir s =
      some (projectDir.join ⟨String.ofList ((value ++ s.channelSegment).map fun c =>
        if c = s.pathSeparator then '/' else c)⟩) := by
  have hescape : escape (value ++ s.channelSegment) = value ++ s.channelSegment :=
    escape_of_plain fun c hc => (hplain c hc).1
  have hnewline : '\n' ∉ value ++ s.channelSegment := fun hmem => (hplain _ hmem).2 rfl
  have hmentions : occursIn s.intermediateField.toList
      (inputField ++ quote (value ++ s.channelSegment)) = true := by
    rw [occursIn_iff, quote, hescape]
    obtain ⟨before, after, hparts⟩ := hfield
    exact ⟨inputField ++ '\'' :: before, after ++ ['\''], by rw [← hparts]; simp⟩
  have hvalue : segmentFront? s.channelSegment (value ++ s.channelSegment ++ ['\'']) =
      some (value ++ s.channelSegment) := by
    refine segmentFront?_eq_some_iff.2 ⟨value, ['\''], rfl, rfl, List.mem_singleton_self _, ?_⟩
    -- After the last quote there is no room for the segment.
    intro hahead
    simpa using hahead.length_lt
  rw [intermediateDir?_inputLine body (by simpa [hescape] using hnewline), String.toList_ofList,
    if_pos hmentions, hescape, hvalue]
  rfl

/-! ## When the directory does not depend on the input -/

/-- The directory is the same for all inputs exactly when a field before the input names it, or no
input names another one than the fields after it. -/
theorem intermediateDir?_independent_iff (node : TargetNode) (projectDir : Path) (s : Settings) :
    (∀ p q : Path, intermediateDir? (Target.ofNode node p s).text.toList projectDir s =
        intermediateDir? (Target.ofNode node q s).text.toList projectDir s) ↔
      (intermediateDir? (beforeInputLine node s) projectDir s).isSome = true ∨
        ∀ input, intermediateDir? (inputLine (lineBreak node.body) input) projectDir s = none ∨
          intermediateDir? (inputLine (lineBreak node.body) input) projectDir s =
            intermediateDir? (afterInputLine node s) projectDir s := by
  simp only [intermediateDir?_ofNode]
  cases hbefore : intermediateDir? (beforeInputLine node s) projectDir s with
  | some dir => simp
  | none =>
    simp only [Option.none_or, Option.isSome_none, Bool.false_eq_true, false_or]
    constructor
    · intro hsame input
      have hempty := hsame input ⟨""⟩
      rw [intermediateDir?_inputLine_empty, Option.none_or] at hempty
      cases hinput : intermediateDir? (inputLine (lineBreak node.body) input) projectDir s with
      | none => exact .inl rfl
      | some dir =>
        rw [hinput, Option.some_or] at hempty
        exact .inr hempty
    · -- An input that names no other directory leaves the one of the fields after it.
      intro hinputs
      have hafter : ∀ input,
          (intermediateDir? (inputLine (lineBreak node.body) input) projectDir s).or
            (intermediateDir? (afterInputLine node s) projectDir s) =
          intermediateDir? (afterInputLine node s) projectDir s := by
        intro input
        rcases hinputs input with hnone | hsame
        · rw [hnone, Option.none_or]
        · rw [hsame, Option.or_self]
      intro p q
      rw [hafter, hafter]

/-- Different relative paths, or different absolute ones, are not resolved to the same path. -/
theorem eq_of_join_eq {base p q : Path} (habsolute : p.isAbsolute = q.isAbsolute)
    (h : base.join p = base.join q) : p = q := by
  have hcancel : ∀ front : String, Path.mk (front ++ p.text) = ⟨front ++ q.text⟩ → p = q := by
    intro front htext
    have hlist := congrArg (fun path => path.text.toList) htext
    simp only [String.toList_append, List.append_cancel_left_eq] at hlist
    exact congrArg Path.mk (String.toList_inj.1 hlist)
  rw [Path.join, Path.join, ← habsolute] at h
  split at h
  · exact h
  · split at h
    · exact hcancel _ h
    · exact hcancel _ h

/-- Two inputs name different directories when the field and the segment can stand in a path as they
are: one that consists of both, and one that repeats them. -/
theorem exists_inputs_of_plain (projectDir : Path) (body : List Char)
    (hplain : ∀ c ∈ s.intermediateField.toList ++ s.channelSegment,
      isEscaped c = false ∧ c ≠ '\n') :
    ∃ p q dir other, dir ≠ other ∧
      intermediateDir? (inputLine (lineBreak body) p) projectDir s = some dir ∧
      intermediateDir? (inputLine (lineBreak body) q) projectDir s = some other := by
  set once := s.intermediateField.toList
  have htwice : ∀ c ∈ (once ++ s.channelSegment ++ once) ++ s.channelSegment,
      isEscaped c = false ∧ c ≠ '\n' := by
    intro c hc
    rw [List.append_assoc, List.mem_append] at hc
    exact hc.elim (hplain c) (hplain c)
  refine ⟨_, _, _, _, ?_,
    intermediateDir?_inputLine_of_plain body hplain (List.prefix_append _ _).isInfix,
    intermediateDir?_inputLine_of_plain body htwice
      ⟨once ++ s.channelSegment, s.channelSegment, rfl⟩⟩
  intro hsame
  have htext := congrArg (fun path => path.text.toList) (eq_of_join_eq ?_ hsame)
  · have hlength := congrArg List.length htext
    simp [Settings.channelSegment] at hlength
  · -- Both begin with the same character.
    simp only [Path.isAbsolute, String.toList_ofList]
    cases once with
    | nil => simp [Settings.channelSegment]
    | cons c rest => simp

/-- The directory to purge is the one that a field before the input names, else the one that the
input names, else the one of the fields after it. So it is the same for all inputs exactly when a
field before the input names it, or no input names another one than the fields after it does. With
a field and a segment that can stand in a path as they are, only the first can be. -/
theorem intermediateDir?_input (node : TargetNode) (projectDir : Path) (s : Settings) :
    (∀ input, intermediateDir? (Target.ofNode node input s).text.toList projectDir s =
      (intermediateDir? (beforeInputLine node s) projectDir s).or
        ((intermediateDir? (inputLine (lineBreak node.body) input) projectDir s).or
          (intermediateDir? (afterInputLine node s) projectDir s))) ∧
    ((∀ p q : Path, intermediateDir? (Target.ofNode node p s).text.toList projectDir s =
        intermediateDir? (Target.ofNode node q s).text.toList projectDir s) ↔
      (intermediateDir? (beforeInputLine node s) projectDir s).isSome = true ∨
        ∀ input, intermediateDir? (inputLine (lineBreak node.body) input) projectDir s = none ∨
          intermediateDir? (inputLine (lineBreak node.body) input) projectDir s =
            intermediateDir? (afterInputLine node s) projectDir s) ∧
    ((∀ c ∈ s.intermediateField.toList ++ s.channelSegment, isEscaped c = false ∧ c ≠ '\n') →
      ((∀ p q : Path, intermediateDir? (Target.ofNode node p s).text.toList projectDir s =
          intermediateDir? (Target.ofNode node q s).text.toList projectDir s) ↔
        (intermediateDir? (beforeInputLine node s) projectDir s).isSome = true)) := by
  refine ⟨fun input => intermediateDir?_ofNode node s input projectDir,
    intermediateDir?_independent_iff node projectDir s, fun hplain => ?_⟩
  rw [intermediateDir?_independent_iff]
  refine ⟨fun h => h.resolve_right fun hinputs => ?_, .inl⟩
  -- Two inputs that name different directories cannot both name the one of the fields after them.
  obtain ⟨p, q, dir, other, hne, hp, hq⟩ := exists_inputs_of_plain projectDir node.body hplain
  have hafter := (hinputs p).resolve_left (by simp [hp])
  have hafter' := (hinputs q).resolve_left (by simp [hq])
  rw [hp] at hafter
  rw [hq, ← hafter] at hafter'
  exact hne (Option.some.inj hafter').symm

/-- A declaration without an intermediate directory. -/
def bareNode : TargetNode where
  name := "X"
  kind := .library
  start := 0
  stop := 15
  headerLength := 12
  text := "Library('X')\x7b\n\x7d"

/-- A source below a directory that looks like one of single-file output decides what is purged. -/
theorem intermediateDir?_input_differs :
    let s : Settings := { intermediateSegment := "/int/" }
    intermediateDir?
        (Target.ofNode bareNode ⟨"/src/App.Intermediate/CompileSingleFile/a.cpp"⟩ s).text.toList
        ⟨"/proj"⟩ s = some ⟨"/src/App.Intermediate/CompileSingleFile/"⟩ ∧
      intermediateDir? (Target.ofNode bareNode ⟨"/src/a.cpp"⟩ s).text.toList ⟨"/proj"⟩ s =
        none := by
  simp only [Target.ofNode, String.toList_ofList]
  decide +kernel

end SoloBuild.SingleFile
