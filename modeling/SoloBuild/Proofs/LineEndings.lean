import SoloBuild.Proofs.PurgeAgreement

/-!
# The line endings of a target

A declaration is cut at its newlines, and the lines that are kept are put together with newlines
alone: a carriage return before a newline is the last character of its line, and stays there because
neither the segment nor the placeholder holds one. The lines that are added bring the line break of
the declaration. So a text with a carriage return before every newline keeps that form, and a text
without carriage returns gets none.

## Key results

- `returnsBeforeNewlines_joinLines_iff`: the form of a text, line by line
- `returnsBeforeNewlines_keptLines`, `returnsBeforeNewlines_injectedFields`: the parts of a target
- `mem_of_mem_keptLines`: where the characters of a kept line come from
- `lineEndings_ofNode`: the line endings of a declaration are those of its target
-/

namespace SoloBuild.Text

open Description

/-- A carriage return stands before every newline of the text. -/
def ReturnsBeforeNewlines (text : List Char) : Prop :=
  ∀ front back, text = front ++ '\n' :: back → front.getLast? = some '\r'

namespace ReturnsBeforeNewlines

variable {xs ys : List Char}

theorem of_not_mem {text : List Char} (h : '\n' ∉ text) : ReturnsBeforeNewlines text := by
  rintro front back rfl
  exact absurd (List.mem_append_right front List.mem_cons_self) h

/-- The line break of two characters. -/
theorem lineBreak : ReturnsBeforeNewlines ['\r', '\n'] := by
  intro front back hsplit
  match front with
  | [] => exact absurd (List.cons.inj hsplit).1 (by decide)
  | [c] => rw [← (List.cons.inj hsplit).1]; rfl
  | c :: d :: front => exact absurd (congrArg List.length hsplit) (by simp)

theorem append (hx : ReturnsBeforeNewlines xs) (hy : ReturnsBeforeNewlines ys) :
    ReturnsBeforeNewlines (xs ++ ys) := by
  intro front back hsplit
  rcases List.append_eq_append_iff.1 hsplit with ⟨us, rfl, hys⟩ | ⟨us, rfl, hback⟩
  · -- The newline stands in the second part, and so does the character before it.
    have hlast := hy us back hys
    rw [List.getLast?_append, hlast, Option.some_or]
  · cases us with
    | nil =>
      have hnone := hy [] back (by simpa using hback.symm)
      cases hnone
    | cons u us =>
      obtain ⟨rfl, rfl⟩ := List.cons.inj hback
      exact hx front us rfl

/-- A front keeps what stands before its newlines. -/
theorem of_append (h : ReturnsBeforeNewlines (xs ++ ys)) : ReturnsBeforeNewlines xs := by
  rintro front back rfl
  exact h front (back ++ ys) (by simp)

/-- What follows a character keeps what stands before its newlines, unless that is the character. -/
theorem of_append_cons {c : Char} (hc : c ≠ '\r') (h : ReturnsBeforeNewlines (xs ++ c :: ys)) :
    ReturnsBeforeNewlines ys := by
  rintro front back rfl
  have hlast := h (xs ++ c :: front) back (by simp)
  rw [List.getLast?_append, List.getLast?_cons, Option.some_or] at hlast
  cases hfront : front.getLast? with
  | none => simp [hfront, hc] at hlast
  | some d => simpa [hfront] using hlast

end ReturnsBeforeNewlines

/-- A line before a newline ends with a carriage return. -/
theorem returnsBeforeNewlines_append_newline {line : List Char} (h : '\n' ∉ line)
    (text : List Char) :
    ReturnsBeforeNewlines (line ++ '\n' :: text) ↔
      line.getLast? = some '\r' ∧ ReturnsBeforeNewlines text := by
  constructor
  · intro hall
    exact ⟨hall line text rfl, hall.of_append_cons (by decide)⟩
  · rintro ⟨hlast, htext⟩
    obtain ⟨front, rfl⟩ := List.getLast?_eq_some_iff.1 hlast
    have hfront : '\n' ∉ front := fun hmem => h (List.mem_append_left _ hmem)
    have hsplit : front ++ ['\r'] ++ '\n' :: text = front ++ (['\r', '\n'] ++ text) := by simp
    rw [hsplit]
    exact (ReturnsBeforeNewlines.of_not_mem hfront).append
      (ReturnsBeforeNewlines.lineBreak.append htext)

/-- In a text that is put together from lines a carriage return stands before every newline exactly
when every line but the last ends with one. -/
theorem returnsBeforeNewlines_joinLines_iff {lines : List (List Char)}
    (h : ∀ line ∈ lines, '\n' ∉ line) :
    ReturnsBeforeNewlines (joinLines lines) ↔
      ∀ line ∈ lines.dropLast, line.getLast? = some '\r' := by
  induction lines with
  | nil => simp [joinLines, joinWith, ReturnsBeforeNewlines]
  | cons line lines ih =>
    have hline := h line List.mem_cons_self
    cases lines with
    | nil =>
      rw [joinLines_singleton]
      simp [ReturnsBeforeNewlines.of_not_mem hline]
    | cons next lines =>
      rw [joinLines_cons_cons, returnsBeforeNewlines_append_newline hline,
        ih fun other hother => h other (List.mem_cons_of_mem line hother), List.dropLast_cons_cons,
        List.forall_mem_cons]

theorem returnsBeforeNewlines_iff {text : List Char} :
    ReturnsBeforeNewlines text ↔
      ∀ line ∈ (splitLines text).dropLast, line.getLast? = some '\r' := by
  have hlines := @returnsBeforeNewlines_joinLines_iff (splitLines text)
    fun _ => not_mem_of_mem_splitLines
  rwa [joinLines_splitLines] at hlines

instance (text : List Char) : Decidable (ReturnsBeforeNewlines text) :=
  decidable_of_iff' _ returnsBeforeNewlines_iff

end SoloBuild.Text

namespace SoloBuild.SingleFile

open Text Description

variable {node : TargetNode} {input : Path}

/-! ## A carriage return before every newline -/

/-- The carriage return at the end of a line stays there. -/
theorem getLast?_relocate {line : List Char} (h : line.getLast? = some '\r') :
    (relocate {} line).getLast? = some '\r' := by
  obtain ⟨front, rfl⟩ := List.getLast?_eq_some_iff.1 h
  rw [relocate_eq, moveText_append_cons (by decide) (by decide),
    moveText_of_not_mem List.not_mem_nil, List.getLast?_concat]

/-- The lines that are kept end as they did. -/
theorem returnsBeforeNewlines_keptLines (h : ReturnsBeforeNewlines node.body) :
    ReturnsBeforeNewlines (joinLines (keptLines {} node.bodyLines)) := by
  rw [returnsBeforeNewlines_iff] at h
  rw [returnsBeforeNewlines_joinLines_iff fun _ => newline_not_mem_keptLines, TargetNode.bodyLines]
  rcases List.eq_nil_or_concat (splitLines node.body) with hnil | ⟨front, last, hlines⟩
  · exact absurd hnil (splitLines_ne_nil node.body)
  · rw [hlines, List.concat_eq_append, List.dropLast_concat] at h
    rw [hlines, List.concat_eq_append, keptLines_append_singleton, List.dropLast_concat]
    intro line hline
    obtain ⟨old, hold, rfl⟩ := List.mem_map.1 hline
    exact getLast?_relocate (h old (List.mem_of_mem_filter hold))

theorem returnsBeforeNewlines_bodyParts (h : ReturnsBeforeNewlines node.body) :
    ReturnsBeforeNewlines (bodyParts node {}).1 ∧ ReturnsBeforeNewlines (bodyParts node {}).2 := by
  have hbody := returnsBeforeNewlines_keptLines h
  rw [bodyParts]
  generalize joinLines (keptLines {} node.bodyLines) = body at hbody
  cases hparts : splitAtLast '}' body with
  | none => exact ⟨hbody, .of_not_mem List.not_mem_nil⟩
  | some parts =>
    obtain ⟨front, back⟩ := parts
    obtain ⟨rfl, rest, rfl, -⟩ := splitAtLast_eq_some hparts
    have hfront := hbody.of_append
    rw [← trimEnd_append_rest front] at hfront
    have hbrace : ReturnsBeforeNewlines ['}'] := .of_not_mem (by decide)
    exact ⟨hfront.of_append, hbrace.append (hbody.of_append_cons (by decide))⟩

/-- The line break is the one of two characters when a carriage return stands before every newline,
and there is one. -/
theorem lineBreak_of_returnsBeforeNewlines {body : List Char} (hmem : '\n' ∈ body)
    (h : ReturnsBeforeNewlines body) : lineBreak body = ['\r', '\n'] := by
  obtain ⟨front, back, rfl⟩ := List.append_of_mem hmem
  obtain ⟨line, rfl⟩ := List.getLast?_eq_some_iff.1 (h front back rfl)
  have hoccurs : occursIn ['\r', '\n'] (line ++ ['\r'] ++ '\n' :: back) = true :=
    occursIn_iff.2 ⟨line, back, by simp⟩
  rw [lineBreak, if_pos hoccurs]

/-- Escaping brings in no characters but the `^`. -/
theorem mem_escape {c : Char} {value : List Char} (h : c ∈ escape value) : c ∈ value ∨ c = '^' := by
  induction value with
  | nil => cases h
  | cons d ds ih =>
    rw [escape] at h
    grind

theorem not_mem_quote {c : Char} (hc : c ∉ ['\'', '^']) {value : List Char} (h : c ∉ value) :
    c ∉ quote value := by
  simp only [List.mem_cons, List.not_mem_nil, or_false, not_or] at hc
  simp only [quote, List.mem_cons, List.mem_append, List.not_mem_nil, or_false, not_or]
  exact ⟨⟨hc.1, fun hmem => (mem_escape hmem).elim h hc.2⟩, hc.1⟩

theorem returnsBeforeNewlines_injectedFields (hinput : '\n' ∉ input.text.toList) :
    ReturnsBeforeNewlines (injectedFields ['\r', '\n'] input) := by
  have hbreak := ReturnsBeforeNewlines.lineBreak
  have hfiles : ReturnsBeforeNewlines ("    ".toList ++ ".CompilerInputFiles = ".toList) :=
    .of_not_mem (by decide)
  have hquote : ReturnsBeforeNewlines (quote input.text.toList) :=
    .of_not_mem (not_mem_quote (by decide) hinput)
  have hcaching : ReturnsBeforeNewlines ("    ".toList ++ ".AllowCaching = false".toList) :=
    .of_not_mem (by decide)
  have hdistribution :
      ReturnsBeforeNewlines ("    ".toList ++ ".AllowDistribution = false".toList) :=
    .of_not_mem (by decide)
  rw [injectedFields_eq_inputLine]
  exact (hbreak.append hbreak).append (((hfiles.append hquote).append hbreak).append
    ((hcaching.append hbreak).append (hdistribution.append hbreak)))

/-- A target has a carriage return before every newline when its declaration has line breaks, and
they are of this form. -/
theorem returnsBeforeNewlines_targetText (hinput : '\n' ∉ input.text.toList)
    (hmem : '\n' ∈ node.body) (h : ReturnsBeforeNewlines node.body) :
    ReturnsBeforeNewlines (targetText node input {}) := by
  obtain ⟨hfront, hback⟩ := returnsBeforeNewlines_bodyParts h
  have hheader : ReturnsBeforeNewlines (headerText {}) := .of_not_mem (by decide)
  rw [targetText, insertFields_eq, lineBreak_of_returnsBeforeNewlines hmem h]
  exact hheader.append ((hfront.append (returnsBeforeNewlines_injectedFields hinput)).append hback)

/-! ## No carriage return at all -/

/-- A character that ends no line stands in a text that is put together from lines exactly when it
stands in a line. -/
theorem mem_joinLines {c : Char} (hc : c ≠ '\n') {lines : List (List Char)} :
    c ∈ joinLines lines ↔ ∃ line ∈ lines, c ∈ line := by
  cases lines with
  | nil => simp [joinLines, joinWith]
  | cons line lines => simp [joinLines_cons, hc]

/-- What a kept line holds stood in the body, or belongs to the segment. -/
theorem mem_of_mem_keptLines {c : Char} (hc : c ≠ '\n') {line : List Char}
    (hline : line ∈ keptLines {} node.bodyLines) (h : c ∈ line) :
    c ∈ node.body ∨ c ∈ "\\int\\CompileSingleFile\\".toList := by
  obtain ⟨kept, hkept, rfl⟩ := List.mem_map.1 hline
  rw [relocate_eq] at h
  refine (mem_moveText h).imp_left fun hmem => ?_
  rw [← joinLines_splitLines node.body, mem_joinLines hc]
  rcases List.mem_append.1 hkept with hfront | hlast
  · exact ⟨kept, List.mem_of_mem_dropLast (List.mem_of_mem_filter hfront), hmem⟩
  · obtain ⟨last, hmemLast, rfl⟩ := List.mem_map.1 hlast
    exact ⟨last, List.mem_of_getLast? (Option.mem_toList.1 hmemLast),
      mem_cutFrom (mem_cutFrom hmem)⟩

theorem return_not_mem_bodyParts (h : '\r' ∉ node.body) :
    '\r' ∉ (bodyParts node {}).1 ∧ '\r' ∉ (bodyParts node {}).2 := by
  have hbody : '\r' ∉ joinLines (keptLines {} node.bodyLines) := by
    rw [mem_joinLines (by decide)]
    rintro ⟨line, hline, hmem⟩
    exact (mem_of_mem_keptLines (by decide) hline hmem).elim h (by decide)
  rw [bodyParts]
  generalize joinLines (keptLines {} node.bodyLines) = body at hbody
  cases hparts : splitAtLast '}' body with
  | none => exact ⟨hbody, List.not_mem_nil⟩
  | some parts =>
    obtain ⟨front, back⟩ := parts
    obtain ⟨rfl, -⟩ := splitAtLast_eq_some hparts
    have hfront : '\r' ∉ front := fun hmem => hbody (List.mem_append_left back hmem)
    rw [← trimEnd_append_rest front] at hfront
    exact ⟨fun hmem => hfront (List.mem_append_left _ hmem),
      fun hmem => hbody (List.mem_append_right front hmem)⟩

theorem lineBreak_of_return_not_mem {body : List Char} (h : '\r' ∉ body) :
    lineBreak body = ['\n'] := by
  rw [lineBreak, occursIn_eq_false_of_not_mem List.mem_cons_self h]
  rfl

theorem return_not_mem_injectedFields (hinput : '\r' ∉ input.text.toList) :
    '\r' ∉ injectedFields ['\n'] input := by
  have hfield : '\r' ∉ inputField := by decide
  have hadded : '\r' ∉ addedLines ['\n'] := by decide
  have hquote : '\r' ∉ quote input.text.toList := not_mem_quote (by decide) hinput
  rw [injectedFields_eq_inputLine, inputLine]
  simp only [List.mem_append, not_or]
  exact ⟨by decide, ⟨⟨hfield, hquote⟩, by decide⟩, hadded⟩

/-- A target has no carriage return when its declaration has none. -/
theorem return_not_mem_targetText (hinput : '\r' ∉ input.text.toList) (h : '\r' ∉ node.body) :
    '\r' ∉ targetText node input {} := by
  obtain ⟨hfront, hback⟩ := return_not_mem_bodyParts h
  have hheader : '\r' ∉ headerText {} := by decide
  rw [targetText, insertFields_eq, lineBreak_of_return_not_mem h]
  simp only [List.mem_append, not_or]
  exact ⟨hheader, ⟨hfront, return_not_mem_injectedFields hinput⟩, hback⟩

/-! ## The line endings of a target -/

/-- The line endings of a declaration are those of its target, for an input on one line. When the
body of the declaration has line breaks, and each of them has a carriage return, so have all line
breaks of the target; when it holds no carriage return, neither does the target. -/
theorem lineEndings_ofNode (node : TargetNode) {input : Path}
    (hreturn : '\r' ∉ input.text.toList) (hnewline : '\n' ∉ input.text.toList) :
    ('\n' ∈ node.body → ReturnsBeforeNewlines node.body →
      ReturnsBeforeNewlines (Target.ofNode node input {}).text.toList) ∧
    ('\r' ∉ node.body → '\r' ∉ (Target.ofNode node input {}).text.toList) := by
  rw [Target.ofNode, String.toList_ofList]
  exact ⟨returnsBeforeNewlines_targetText hnewline, return_not_mem_targetText hreturn⟩

/-- A library with a field to move, a field to drop, and carriage returns, and the same library
without them. -/
theorem lineEndings_ofNode_sample :
    let crlf := libraryNode
      "\r\n\x7b\r\n .Intermediate = 'int\\int\\X\\'\r\n .CompilerInputUnity = 'U'\r\n\x7d"
    let lf := libraryNode
      "\n\x7b\n .Intermediate = 'int\\int\\X\\'\n .CompilerInputUnity = 'U'\n\x7d"
    ReturnsBeforeNewlines (Target.ofNode crlf ⟨"/proj/a.cpp"⟩ {}).text.toList ∧
      '\r' ∉ (Target.ofNode lf ⟨"/proj/a.cpp"⟩ {}).text.toList := by
  constructor
  · exact (lineEndings_ofNode _ (by decide) (by decide)).1 (by decide) (by decide)
  · exact (lineEndings_ofNode _ (by decide) (by decide)).2 (by decide)

end SoloBuild.SingleFile
