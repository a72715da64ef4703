import SoloBuild.Proofs.PurgeConfined

/-!
# What a purge reads

The directory to purge is read line by line. Text that is put together at newlines is read part
after part, and the first part that names a directory decides. In a line the value begins at the
first quote, wherever that belongs to, and ends with the last occurrence of the segment that another
quote follows.

## Key results

- `lines_append_newline`: the lines of a text that is put together at a newline
- `segmentFront?_eq_some_iff`: the last occurrence of the segment before a quote
- `channelDirectory?_eq_some_iff`: the value of a line
- `intermediateDir?_append_newline`: the first part that names a directory decides
-/

namespace SoloBuild.Text

/-! ## Lines -/

theorem ended_append (front : List (List Char)) {back : List (List Char)} (h : back ≠ []) :
    lines.ended (front ++ back) = front.map dropReturn ++ lines.ended back := by
  induction front with
  | nil => rfl
  | cons line front ih =>
    obtain ⟨next, rest, hrest⟩ := List.exists_cons_of_ne_nil
      (show front ++ back ≠ [] from List.append_ne_nil_of_right_ne_nil front h)
    rw [List.cons_append, hrest, lines.ended, ← hrest, ih]
    · rfl
    · exact List.cons_ne_nil next rest

/-- Every line before a newline is ended by one. -/
theorem lines_append_newline (front back : List Char) :
    lines (front ++ '\n' :: back) = (splitLines front).map dropReturn ++ lines back := by
  rw [lines, splitLines, splitWhere_append_cons rfl, ended_append _ (splitWhere_ne_nil _ back)]
  rfl

theorem lines_concat_newline (text : List Char) :
    lines (text ++ ['\n']) = (splitLines text).map dropReturn := by
  rw [lines_append_newline]
  exact List.append_nil _

theorem splitReturn_concat (front : List Char) (c : Char) :
    dropReturn.splitReturn (front ++ [c]) = if c = '\r' then some front else none := by
  induction front with
  | nil =>
    by_cases hc : c = '\r'
    · rw [hc]; rfl
    · rw [List.nil_append, dropReturn.splitReturn, if_neg hc]
      · rfl
      · simpa using hc
  | cons d front ih =>
    rw [List.cons_append, dropReturn.splitReturn, ih]
    · split <;> rfl
    · simp

/-- A line loses a carriage return at its end. -/
theorem dropReturn_concat (front : List Char) (c : Char) :
    dropReturn (front ++ [c]) = if c = '\r' then front else front ++ [c] := by
  rw [dropReturn, splitReturn_concat]
  by_cases hc : c = '\r'
  · rw [if_pos hc, if_pos hc]
  · rw [if_neg hc, if_neg hc]

end SoloBuild.Text

namespace SoloBuild.SingleFile

open Text

/-! ## The value of a line -/

/-- The segment occurs in a text, and a quote follows it. -/
def SegmentAhead (segment text : List Char) : Prop :=
  ∃ skipped following after, text = skipped ++ segment ++ following ++ '\'' :: after

variable {segment text line front : List Char}

/-- A text with the segment ahead is longer than the segment. -/
theorem SegmentAhead.length_lt (h : SegmentAhead segment text) : segment.length < text.length := by
  obtain ⟨skipped, following, after, rfl⟩ := h
  simp only [List.length_append, List.length_cons]
  omega

theorem segmentFront?_eq_none_iff :
    segmentFront? segment text = none ↔ ¬SegmentAhead segment text := by
  constructor
  · rintro hnone ⟨skipped, following, after, rfl⟩
    have hsome := segmentFront?_isSome segment skipped following after
    rw [hnone] at hsome
    cases hsome
  · intro hnone
    cases hfront : segmentFront? segment text with
    | none => rfl
    | some front =>
      obtain ⟨value, rest, rfl, rfl, hquote⟩ := segmentFront?_eq_some hfront
      obtain ⟨following, after, rfl⟩ := List.append_of_mem hquote
      exact absurd ⟨value, following, after, by simp⟩ hnone

/-- A front that is followed by a quote leaves the segment ahead. -/
theorem segmentAhead_of_mem {value rest : List Char} (h : '\'' ∈ rest) :
    SegmentAhead segment (value ++ segment ++ rest) := by
  obtain ⟨following, after, rfl⟩ := List.append_of_mem h
  exact ⟨value, following, after, by simp⟩

/-- The front that is found ends with the last occurrence of the segment that a quote follows. -/
theorem segmentFront?_eq_some_iff :
    segmentFront? segment text = some front ↔ ∃ value rest, front = value ++ segment ∧
      text = front ++ rest ∧ '\'' ∈ rest ∧ ¬SegmentAhead segment (segment ++ rest).tail := by
  induction text generalizing front with
  | nil =>
    simp only [segmentFront?, reduceCtorEq, false_iff]
    rintro ⟨value, rest, -, htext, hquote, -⟩
    rw [(List.append_eq_nil_iff.1 htext.symm).2] at hquote
    cases hquote
  | cons c cs ih =>
    cases hlater : segmentFront? segment cs with
    | some later =>
      -- A later occurrence is preferred, so the front does not begin with the segment.
      have hahead : SegmentAhead segment cs := by
        by_contra hnone
        rw [segmentFront?_eq_none_iff.2 hnone] at hlater
        cases hlater
      have hcons : segmentFront? segment (c :: cs) = some (c :: later) := by
        rw [segmentFront?, hlater]
      rw [hcons, Option.some.injEq]
      constructor
      · rintro rfl
        obtain ⟨value, rest, hfront, htext, hquote, hlast⟩ := ih.1 hlater
        exact ⟨c :: value, rest, by rw [hfront]; rfl, by rw [htext]; rfl, hquote, hlast⟩
      · rintro ⟨value, rest, rfl, htext, hquote, hlast⟩
        cases value with
        | nil =>
          rw [List.nil_append] at htext
          rw [← htext] at hlast
          exact absurd hahead hlast
        | cons d value =>
          obtain ⟨rfl, rfl⟩ := List.cons.inj htext
          have hfound := ih.2 ⟨value, rest, rfl, rfl, hquote, hlast⟩
          rw [hlater] at hfound
          rw [Option.some.inj hfound]
          rfl
    | none =>
      have hahead := segmentFront?_eq_none_iff.1 hlater
      constructor
      · intro hfront
        obtain ⟨value, rest, rfl, htext, hquote⟩ := segmentFront?_eq_some hfront
        refine ⟨value, rest, rfl, htext, hquote, ?_⟩
        cases value with
        | nil =>
          rw [List.nil_append] at htext
          rwa [← htext]
        | cons d value =>
          obtain ⟨-, rfl⟩ := List.cons.inj htext
          exact absurd (segmentAhead_of_mem hquote) hahead
      · rintro ⟨value, rest, rfl, htext, hquote, hlast⟩
        cases value with
        | nil =>
          rw [List.nil_append] at htext ⊢
          rw [segmentFront?, hlater, htext, afterFront?_append]
          exact if_pos (List.contains_iff_mem.2 hquote)
        | cons d value =>
          obtain ⟨-, rfl⟩ := List.cons.inj htext
          exact absurd (segmentAhead_of_mem hquote) hahead

/-- The value of a line begins at its first quote. -/
theorem channelDirectory?_eq_some_iff :
    channelDirectory? segment line = some front ↔ ∃ before value rest,
      line = before ++ '\'' :: (value ++ segment ++ rest) ∧ '\'' ∉ before ∧
      front = value ++ segment ∧ '\'' ∈ rest ∧ ¬SegmentAhead segment (segment ++ rest).tail := by
  constructor
  · intro h
    obtain ⟨⟨before, text⟩, hquote, hvalue⟩ := Option.bind_eq_some_iff.1 h
    obtain ⟨hline, hbefore⟩ := upTo?_eq_some hquote
    obtain ⟨value, rest, hfront, htext, hclose, hlast⟩ := segmentFront?_eq_some_iff.1 hvalue
    rw [htext, hfront] at hline
    exact ⟨before, value, rest, hline, hbefore, hfront, hclose, hlast⟩
  · rintro ⟨before, value, rest, rfl, hbefore, rfl, hclose, hlast⟩
    rw [channelDirectory?, upTo?_append_cons hbefore]
    exact segmentFront?_eq_some_iff.2 ⟨value, rest, rfl, rfl, hclose, hlast⟩

theorem segmentAhead_append_iff {unquoted : List Char} (h : '\'' ∉ unquoted) :
    SegmentAhead segment (text ++ unquoted) ↔ SegmentAhead segment text := by
  constructor
  · rintro ⟨skipped, following, after, htext⟩
    rcases List.append_eq_append_iff.1 htext with ⟨more, -, hmore⟩ | ⟨more, htext, hmore⟩
    · exact absurd (hmore ▸ List.mem_append_right more List.mem_cons_self) h
    · cases more with
      | nil =>
        rw [List.nil_append] at hmore
        exact absurd (hmore ▸ List.mem_cons_self) h
      | cons c more =>
        obtain ⟨rfl, -⟩ := List.cons.inj hmore
        exact ⟨skipped, following, more, htext⟩
  · rintro ⟨skipped, following, after, rfl⟩
    exact ⟨skipped, following, after ++ unquoted, by simp⟩

theorem segmentFront?_append {unquoted : List Char} (h : '\'' ∉ unquoted) (text : List Char) :
    segmentFront? segment (text ++ unquoted) = segmentFront? segment text := by
  have htail : ∀ rest : List Char, '\'' ∈ rest →
      (segment ++ (rest ++ unquoted)).tail = (segment ++ rest).tail ++ unquoted := by
    intro rest hrest
    rw [← List.append_assoc, List.tail_append_of_ne_nil]
    exact List.append_ne_nil_of_right_ne_nil _ (List.ne_nil_of_mem hrest)
  refine Option.ext fun front => ?_
  rw [segmentFront?_eq_some_iff, segmentFront?_eq_some_iff]
  constructor
  · rintro ⟨value, rest, rfl, htext, hquote, hlast⟩
    rcases List.append_eq_append_iff.1 htext with ⟨more, -, rfl⟩ | ⟨more, rfl, rfl⟩
    · exact absurd (List.mem_append_right more hquote) h
    · have hmore := (List.mem_append.1 hquote).resolve_right h
      rw [htail more hmore, segmentAhead_append_iff h] at hlast
      exact ⟨value, more, rfl, rfl, hmore, hlast⟩
  · rintro ⟨value, rest, rfl, rfl, hquote, hlast⟩
    refine ⟨value, rest ++ unquoted, rfl, by simp, List.mem_append_left _ hquote, ?_⟩
    rwa [htail rest hquote, segmentAhead_append_iff h]

/-- What follows the last quote of a line does not matter. -/
theorem channelDirectory?_append {unquoted : List Char} (h : '\'' ∉ unquoted) (line : List Char) :
    channelDirectory? segment (line ++ unquoted) = channelDirectory? segment line := by
  rw [channelDirectory?, channelDirectory?]
  cases hline : upTo? '\'' line with
  | some parts =>
    obtain ⟨before, rest⟩ := parts
    obtain ⟨rfl, hbefore⟩ := upTo?_eq_some hline
    rw [List.append_assoc, List.cons_append, upTo?_append_cons hbefore]
    exact segmentFront?_append h rest
  | none =>
    have hnone : '\'' ∉ line ++ unquoted := by
      rw [List.mem_append, not_or]
      exact ⟨upTo?_eq_none_iff.1 hline, h⟩
    rw [upTo?_eq_none_iff.2 hnone]

/-- A value is not read from its own quote when the line has a quote before: it occurs later than
the value that begins there. -/
theorem segmentFront?_ne_of_quote {more after : List Char} (h : '\'' ∈ after) :
    segmentFront? segment (more ++ '\'' :: (front ++ segment ++ after)) ≠
      some (front ++ segment) := by
  intro hfront
  obtain ⟨value, rest, hvalue, htext, -, hlast⟩ := segmentFront?_eq_some_iff.1 hfront
  obtain rfl : front = value := List.append_cancel_right hvalue
  apply hlast
  -- The text without as many characters as the value has, and one more.
  have hrest : (segment ++ rest).tail =
      (more ++ '\'' :: (front ++ segment ++ after)).drop (front.length + 1) := by
    rw [htext, List.append_assoc, ← List.drop_drop, List.drop_left, List.drop_one]
  have hparts : more ++ '\'' :: (front ++ segment ++ after) =
      (more ++ '\'' :: front) ++ (segment ++ after) := by
    simp
  have hlength : front.length + 1 ≤ (more ++ '\'' :: front).length := by
    simp
  rw [hrest, hparts, List.drop_append_of_le_length hlength, ← List.append_assoc]
  exact segmentAhead_of_mem h

/-- A value that ends with the segment is read from the quote before it exactly when that is the
first quote, and the segment does not occur again before another quote. -/
theorem channelDirectory?_quoted_iff {before after : List Char} (h : '\'' ∈ after) :
    channelDirectory? segment (before ++ '\'' :: (front ++ segment ++ after)) =
        some (front ++ segment) ↔
      '\'' ∉ before ∧ ¬SegmentAhead segment (segment ++ after).tail := by
  rw [channelDirectory?]
  cases hbefore : upTo? '\'' before with
  | some parts =>
    obtain ⟨earlier, more⟩ := parts
    obtain ⟨rfl, hearlier⟩ := upTo?_eq_some hbefore
    rw [List.append_assoc, List.cons_append, upTo?_append_cons hearlier]
    simp only [Option.bind_some, segmentFront?_ne_of_quote h, false_iff]
    simp
  | none =>
    have hnone := upTo?_eq_none_iff.1 hbefore
    rw [upTo?_append_cons hnone]
    simp only [Option.bind_some, hnone, not_false_eq_true, true_and]
    constructor
    · intro hfront
      obtain ⟨value, rest, hvalue, htext, -, hlast⟩ := segmentFront?_eq_some_iff.1 hfront
      rw [List.append_cancel_left htext]
      exact hlast
    · intro hlast
      exact segmentFront?_eq_some_iff.2 ⟨front, after, rfl, rfl, h, hlast⟩

/-! ## The directory of a text -/

/-- The value that a text gives for the directory of single-file output. -/
def directoryValue? (target : List Char) (s : Settings) : Option (List Char) :=
  ((lines target).filter (occursIn s.intermediateField.toList)).findSome?
    (channelDirectory? s.channelSegment)

/-- The directory is the value with native separators, resolved against the project's. -/
theorem intermediateDir?_eq (target : List Char) (projectDir : Path) (s : Settings) :
    intermediateDir? target projectDir s = (directoryValue? target s).map fun value =>
      projectDir.join
        ⟨String.ofList (value.map fun c => if c = s.pathSeparator then '/' else c)⟩ := rfl

theorem directoryValue?_append_newline (front back : List Char) (s : Settings) :
    directoryValue? (front ++ '\n' :: back) s =
      (directoryValue? (front ++ ['\n']) s).or (directoryValue? back s) := by
  rw [directoryValue?, lines_append_newline, ← lines_concat_newline, List.filter_append,
    List.findSome?_append]
  rfl

/-- The first part of a text that names a directory decides. -/
theorem intermediateDir?_append_newline (front back : List Char) (projectDir : Path)
    (s : Settings) :
    intermediateDir? (front ++ '\n' :: back) projectDir s =
      (intermediateDir? (front ++ ['\n']) projectDir s).or
        (intermediateDir? back projectDir s) := by
  simp only [intermediateDir?_eq]
  rw [directoryValue?_append_newline, Option.map_or]

end SoloBuild.SingleFile
