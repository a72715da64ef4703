import Mathlib.Data.List.DropRight
import SoloBuild.Process.Output

/-!
# Lines of bytes and lines of text

Output is taken apart into lines before it is read as UTF-8. The same lines come out when all of it
is read first and the text is taken apart then, whatever the bytes are: a newline byte is read as a
newline, also where it cuts off a character, and nothing else is read as one.

## Key results

- `newline_not_mem_decodeLossy`: a text holds no newline that its bytes do not hold
- `map_decodeLossy_linesOf`: reading line by line is reading everything and taking it apart then
- `map_forwardLine_linesOf`: the lines of a stream are forwarded as `writesOf` says
-/

namespace SoloBuild

namespace Text

/-! ## What is read as a newline -/

/-- The character that is being read is none of ASCII. -/
def Utf8State.AboveAscii : Utf8State → Prop
  | .start => True
  | .inside bits more lo _ =>
    0x80 ≤ lo ∧ 2 ≤ bits * 64 + (lo - 0x80) ∧ (more = 0 → 0x80 ≤ bits * 64 + (lo - 0x80))

theorem ofNat_eq_newline {n : Nat} (h : Char.ofNat n = '\n') : n = 0x0A := by
  by_cases hn : n.isValidChar
  · have htoNat : (Char.ofNat n).toNat = n := by
      rw [Char.ofNat, dif_pos hn]
      rfl
    rw [← htoNat, h]
    rfl
  -- What is no number of a character is read as another one.
  · rw [Char.ofNat, dif_neg hn] at h
    cases h

theorem first_of_ne_newline {b : Nat} (hb : b ≠ 0x0A) :
    '\n' ∉ (Utf8State.first b).1 ∧ (Utf8State.first b).2.AboveAscii := by
  unfold Utf8State.first
  split
  · refine ⟨fun hmem => hb (ofNat_eq_newline (List.mem_singleton.1 hmem).symm), trivial⟩
  · repeat' split
    all_goals refine ⟨by simp [replacementChar], ?_⟩
    all_goals simp only [Utf8State.AboveAscii]
    all_goals omega

theorem step_of_ne_newline {state : Utf8State} (hstate : state.AboveAscii) {b : Nat}
    (hb : b ≠ 0x0A) : '\n' ∉ (state.step b).1 ∧ (state.step b).2.AboveAscii := by
  cases state with
  | start => exact first_of_ne_newline hb
  | inside bits more lo hi =>
    obtain ⟨hlo, htwo, hlast⟩ := hstate
    rw [Utf8State.step]
    split
    · next hrange =>
      cases more with
      -- The last byte of a character makes its number at least that of the first one above ASCII.
      | zero =>
        refine ⟨fun hmem => ?_, trivial⟩
        have hn := ofNat_eq_newline (List.mem_singleton.1 hmem).symm
        have := hlast rfl
        omega
      | succ more =>
        refine ⟨List.not_mem_nil, ?_⟩
        simp only [Utf8State.AboveAscii]
        omega
    · obtain ⟨hchars, hnext⟩ := first_of_ne_newline hb
      exact ⟨by simpa [replacementChar] using hchars, hnext⟩

theorem run_cons (state : Utf8State) (b : UInt8) (bs : List UInt8) :
    state.run (b :: bs) = (state.step b.toNat).1 ++ (state.step b.toNat).2.run bs := rfl

theorem run_of_newline_not_mem {state : Utf8State} (hstate : state.AboveAscii)
    {bytes : List UInt8} (hbytes : newlineByte ∉ bytes) : '\n' ∉ state.run bytes := by
  induction bytes generalizing state with
  | nil => cases state <;> simp [Utf8State.run, Utf8State.finish, replacementChar]
  | cons b bs ih =>
    obtain ⟨hb, hbs⟩ := not_or.1 (List.mem_cons.not.1 hbytes)
    have hne : b.toNat ≠ 0x0A := fun heq => hb (UInt8.toNat_inj.1 heq).symm
    obtain ⟨hchars, hnext⟩ := step_of_ne_newline hstate hne
    rw [run_cons]
    exact List.mem_append.not.2 (not_or.2 ⟨hchars, ih hnext hbs⟩)

/-- Nothing but a newline byte is read as a newline. -/
theorem newline_not_mem_decodeLossy {bytes : List UInt8} (h : newlineByte ∉ bytes) :
    '\n' ∉ decodeLossy bytes :=
  @run_of_newline_not_mem .start trivial bytes h

/-- The reader stands inside a character. -/
def Utf8State.IsInside : Utf8State → Prop
  | .start => False
  | .inside .. => True

/-- A byte is read at once, or as part of a character that is not finished. -/
theorem step_reads (state : Utf8State) (b : Nat) :
    (state.step b).1 ≠ [] ∨ (state.step b).2.IsInside := by
  cases state with
  | start =>
    unfold Utf8State.step Utf8State.first
    repeat' split
    all_goals first | exact .inl (List.cons_ne_nil _ _) | exact .inr trivial
  | inside bits more lo hi =>
    rw [Utf8State.step]
    split
    · cases more with
      | zero => exact .inl (List.cons_ne_nil _ _)
      | succ more => exact .inr trivial
    · exact .inl (List.cons_ne_nil _ _)

theorem run_ne_nil {state : Utf8State} {bytes : List UInt8} (h : state.IsInside ∨ bytes ≠ []) :
    state.run bytes ≠ [] := by
  induction bytes generalizing state with
  | nil =>
    cases state with
    | start => exact (h.resolve_left id).elim rfl
    | inside => exact List.cons_ne_nil _ _
  | cons b bs ih =>
    rw [run_cons]
    obtain hchars | hinside := step_reads state b.toNat
    · exact List.append_ne_nil_of_left_ne_nil hchars _
    · exact List.append_ne_nil_of_right_ne_nil _ (ih (.inl hinside))

/-- Something is read wherever there are bytes. -/
theorem decodeLossy_ne_nil {bytes : List UInt8} (h : bytes ≠ []) : decodeLossy bytes ≠ [] :=
  run_ne_nil (.inr h)

/-! ## Lines of a text -/

/-- The lines of a text: what stands before each newline, and what is left after the last one,
unless nothing is. -/
def endedLines (text : List Char) : List (List Char) :=
  let pieces := splitLines text
  if pieces.getLast? = some [] then pieces.dropLast else pieces

theorem endedLines_of_not_mem {text : List Char} (hne : text ≠ []) (h : '\n' ∉ text) :
    endedLines text = [text] := by
  rw [endedLines, splitLines, splitWhere_of_not_mem '\n' text h]
  exact if_neg fun hlast => hne (by simpa using hlast)

theorem endedLines_append_newline {line : List Char} (h : '\n' ∉ line) (rest : List Char) :
    endedLines (line ++ '\n' :: rest) = line :: endedLines rest := by
  have hpieces : splitLines (line ++ '\n' :: rest) = line :: splitLines rest := by
    rw [splitLines, splitWhere_append_cons (by rfl), splitWhere_of_not_mem '\n' line h]
    rfl
  have hne := splitLines_ne_nil rest
  rw [endedLines, hpieces, endedLines, List.getLast?_cons_of_ne_nil hne,
    List.dropLast_cons_of_ne_nil hne]
  split <;> rfl

end Text

open Text

/-! ## Lines of a stream -/

/-- What has no newline is one line, unless it is nothing. -/
theorem linesOf_of_not_mem {bytes : List UInt8} (hne : bytes ≠ []) (h : newlineByte ∉ bytes) :
    linesOf bytes = [bytes] := by
  simp [linesOf, LineReader.feed_of_not_mem h, LineReader.finish, LineReader.line, hne]

/-- A stream is nothing, or the end of a line without a newline, or a line with a newline and what
follows. -/
theorem stream_induction {motive : List UInt8 → Prop} (nil : motive [])
    (last : ∀ bytes, bytes ≠ [] → newlineByte ∉ bytes → motive bytes)
    (line : ∀ line rest, newlineByte ∉ line → motive rest → motive (line ++ newlineByte :: rest))
    (bytes : List UInt8) : motive bytes := by
  induction hn : bytes.length using Nat.strongRecOn generalizing bytes with
  | _ n ih =>
    by_cases hmem : newlineByte ∈ bytes
    · obtain ⟨front, rest, rfl, hfront⟩ := List.eq_append_cons_of_mem hmem
      refine line front rest hfront (ih rest.length ?_ rest rfl)
      rw [← hn, List.length_append, List.length_cons]
      omega
    · by_cases hne : bytes = []
      · exact hne ▸ nil
      · exact last bytes hne hmem

/-- A stream is read line by line as it is read as a whole. -/
theorem map_decodeLossy_linesOf (bytes : List UInt8) :
    (linesOf bytes).map decodeLossy = endedLines (decodeLossy bytes) := by
  induction bytes using stream_induction with
  | nil => rfl
  | last bytes hne h =>
    rw [linesOf_of_not_mem hne h,
      endedLines_of_not_mem (decodeLossy_ne_nil hne) (newline_not_mem_decodeLossy h)]
    rfl
  | line line rest h ih =>
    have hdecode : decodeLossy (line ++ newlineByte :: rest) =
        decodeLossy line ++ '\n' :: decodeLossy rest := decodeLossy_append_newline line rest
    rw [linesOf_append_newline line rest h, hdecode,
      endedLines_append_newline (newline_not_mem_decodeLossy h), List.map_cons, ih]

theorem newline_not_mem_of_mem_linesOf {bytes line : List UInt8} (hline : line ∈ linesOf bytes) :
    newlineByte ∉ line := by
  induction bytes using stream_induction with
  | nil => cases hline
  | last bytes hne h =>
    rw [linesOf_of_not_mem hne h] at hline
    exact List.mem_singleton.1 hline ▸ h
  | line front rest h ih =>
    rw [linesOf_append_newline front rest h] at hline
    obtain rfl | hline := List.mem_cons.1 hline
    · exact h
    · exact ih hline

/-! ## What is forwarded -/

/-- Where there is no newline, only carriage returns are trimmed. -/
theorem trimLineBreaks_of_not_mem {line : List Char} (h : '\n' ∉ line) :
    trimLineBreaks line = line.rdropWhile (· == '\r') := by
  change line.rdropWhile (fun c => c == '\n' || c == '\r') = line.rdropWhile (· == '\r')
  induction line using List.reverseRecOn with
  | nil => rfl
  | append_singleton line c ih =>
    rw [List.mem_append, not_or, List.mem_singleton] at h
    rw [List.rdropWhile_concat, List.rdropWhile_concat, ih h.1,
      beq_eq_false_iff_ne.2 (Ne.symm h.2), Bool.false_or]

/-- What the sink is to be told for a stream: one write for each line of its text, without the
carriage returns at the end of the line, and with one newline. -/
def writesOf (bytes : List UInt8) : List SinkCall :=
  (endedLines (decodeLossy bytes)).map fun line =>
    .write (String.ofList (line.rdropWhile (· == '\r')) ++ "\n")

theorem map_forwardLine_linesOf (bytes : List UInt8) :
    (linesOf bytes).map forwardLine = writesOf bytes := by
  rw [writesOf, ← map_decodeLossy_linesOf, List.map_map]
  refine List.map_congr_left fun line hline => ?_
  have hnone := newline_not_mem_decodeLossy (newline_not_mem_of_mem_linesOf hline)
  rw [Function.comp_apply, ← trimLineBreaks_of_not_mem hnone]
  rfl

end SoloBuild
