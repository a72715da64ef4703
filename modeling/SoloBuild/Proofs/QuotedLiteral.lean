import SoloBuild.Proofs.ByteRegions
import SoloBuild.Proofs.NameLiteral
import SoloBuild.Proofs.SurvivingReferences

/-!
# The literal of a quoted value

A value is quoted by one rule, and literals are read by another: the first puts a `^` before three
characters, the second looks for the first quote that no `^` escapes. This module says that they
agree for every value. The quoted value is one literal token, whatever was read before it and
whatever follows it; the reader is in code behind it, on a line that is not blank; and without the
`^` that escape, the content of the literal is the value.

## Key results

- `textBytes_quote`: quoting the bytes of a value quotes the value
- `isToken_quote`: a quoted value is one literal token
- `withoutEscapes_escape`: the content of its literal stands for the value
- `after_of_endsInCode`: where the reading stands behind code
- `quote_roundTrip`: quoting and reading agree
-/

namespace SoloBuild.Description

open Text

/-! ## The text that a literal stands for -/

/-- The reading stands behind a `^` that escapes the next character. -/
def ReadState.isEscaping : ReadState → Bool
  | .literal _ escaped => escaped
  | _ => false

/-- A text read from a state, without each `^` that escapes the character behind it. -/
def withoutEscapes : ReadState → List Char → List Char
  | _, [] => []
  | state, c :: cs =>
    let following := (state.step cs.head? c).2
    if following.isEscaping then withoutEscapes following cs else c :: withoutEscapes following cs

/-! ## Where the reading stands behind code -/

/-- The text ends, when `rest` follows it, with a character of code that is not at the start of its
line. -/
def EndsInCode (text rest : List Char) : Prop :=
  ∃ cells c, cellsFrom rest.head? .start text = cells ++ [(c, .code)] ∧
    atLineStart (cells ++ [(c, .code)]) = false

/-- A character in a literal that leads to code is the quote that closes the literal. -/
theorem eq_quote_of_step_code {quote c : Char} {escaped lineStart : Bool} {next : Option Char}
    (h : ((ReadState.literal quote escaped).step next c).2 = .code lineStart) :
    c = quote ∧ lineStart = false := by
  simp only [ReadState.step] at h
  split at h
  · cases h
  · split at h
    · cases h
    · split at h
      · rename_i hc
        exact ⟨hc, (ReadState.code.inj h).symm⟩
      · cases h

/-- One character more: when the reader is in code behind it, it knows whether the line holds only
blanks, if it knew so in code before it. -/
theorem atLineStart_step {state : ReadState} (hquoted : state.IsQuoted) {before : List Cell}
    (hbefore : ∀ lineStart, state = .code lineStart → atLineStart before = lineStart)
    {next : Option Char} {c : Char} {lineStart : Bool}
    (h : (state.step next c).2 = .code lineStart) :
    atLineStart (before ++ [(c, (state.step next c).1)]) = lineStart := by
  rw [atLineStart_concat]
  -- Only the end of a comment or of a literal leads to code from outside it.
  cases state with
  | code blank =>
    rw [hbefore blank rfl, isAsciiBlank_eq]
    rcases ReadState.step_code_cases blank next c with ⟨hstep, -⟩ | hstep | ⟨hstep, rfl⟩ | hstep
    · rw [hstep] at h; cases h
    · rw [hstep] at h; cases h
    · rw [hstep] at h ⊢
      obtain rfl : true = lineStart := ReadState.code.inj h
      rfl
    · by_cases hnewline : c = '\n'
      · rw [hnewline] at h ⊢
        obtain rfl : true = lineStart := ReadState.code.inj h
        rfl
      · have hfalse : (c == '\n') = false := beq_eq_false_iff_ne.2 hnewline
        rw [hstep] at h ⊢
        rw [← ReadState.code.inj h]
        simp [endsLine, hfalse]
  | literal quote escaped =>
    obtain ⟨rfl, rfl⟩ := eq_quote_of_step_code h
    have hliteral : (ReadState.literal c escaped).isLiteral = true := rfl
    have hregion := ReadState.step_of_isLiteral hliteral next c
    rw [hregion]
    rcases isQuote_cases hquoted with rfl | rfl <;> simp [endsLine, isAsciiBlank]
  | comment =>
    rcases ReadState.step_comment_cases next c with ⟨hstep, rfl⟩ | hstep
    · rw [hstep] at h ⊢
      obtain rfl : true = lineStart := ReadState.code.inj h
      rfl
    · rw [hstep] at h; cases h

/-- In code the reader knows whether its line holds only blanks. -/
theorem atLineStart_cellsFrom {next : Option Char} {text : List Char} {lineStart : Bool}
    (h : ReadState.start.after next text = .code lineStart) :
    atLineStart (cellsFrom next .start text) = lineStart := by
  induction text using List.reverseRecOn generalizing next lineStart with
  | nil =>
    obtain rfl : true = lineStart := ReadState.code.inj h
    rfl
  | append_singleton text c ih =>
    rw [ReadState.after_append] at h
    rw [cellsFrom_append]
    exact atLineStart_step (isQuoted_after (ReadState.isQuoted_code true) _ text)
      (fun _ hstate => ih hstate) h

/-- Behind a character of code the reader is in code. -/
theorem exists_code_of_region {state : ReadState} {next : Option Char} {c : Char}
    (h : (state.step next c).1 = .code) : ∃ lineStart, (state.step next c).2 = .code lineStart := by
  obtain ⟨blank, rfl⟩ := ReadState.exists_code_of_step h
  rcases ReadState.step_code_cases blank next c with ⟨hstep, -⟩ | hstep | ⟨hstep, -⟩ | hstep
  · rw [hstep] at h; cases h
  · rw [hstep] at h; cases h
  · exact ⟨true, by rw [hstep]; rfl⟩
  · exact ⟨_, by rw [hstep]⟩

/-- Behind a character of code that is not at the start of its line the reader is in code, and its
line is not blank. -/
theorem after_of_endsInCode {text rest : List Char} (h : EndsInCode text rest) :
    ReadState.start.after rest.head? text = .code false := by
  obtain ⟨cells, c, hcells, hline⟩ := h
  rw [← hcells] at hline
  obtain rfl | ⟨front, d, rfl⟩ := List.eq_nil_or_concat text
  · simp at hcells
  · rw [List.concat_eq_append] at hcells hline ⊢
    rw [cellsFrom_append] at hcells
    obtain ⟨-, hregion⟩ := Prod.mk.inj (List.cons.inj (List.append_inj' hcells rfl).2).1
    obtain ⟨lineStart, hcode⟩ := exists_code_of_region hregion
    have hafter : ReadState.start.after rest.head? (front ++ [d]) = .code lineStart := by
      rw [ReadState.after_append]
      exact hcode
    rw [hafter, ← hline, atLineStart_cellsFrom hafter]

/-- The bytes of a text that lies in one region. -/
theorem regionBytes_cellsIn (region : Region) (text : List Char) :
    regionBytes (cellsIn region text) = List.replicate (byteLength text) region := by
  induction text with
  | nil => rfl
  | cons c cs ih =>
    rw [cellsIn_cons, regionBytes_cons, ih, List.replicate_append_replicate, byteLength_cons]

/-- What follows a text that ends in code is read as code on a line that is not blank. -/
theorem drop_classifyBytes_of_endsInCode {text rest : List Char} (h : EndsInCode text rest) :
    (classifyBytes (text ++ rest)).drop (byteLength text) =
      regionBytes (cellsFrom none (.code false) rest) := by
  have hlength : byteLength text = (regionBytes (cellsFrom rest.head? .start text)).length := by
    rw [length_regionBytes, cellBytes, map_fst_cellsFrom]
  rw [classifyBytes_eq_regionBytes, cellsFrom_append, Option.or_none, after_of_endsInCode h,
    regionBytes_append, hlength, List.drop_left]

end SoloBuild.Description

namespace SoloBuild.SingleFile

open Text Description

/-! ## The bytes of a quoted value -/

@[simp] theorem textBytes_append (xs ys : List Char) :
    textBytes (xs ++ ys) = textBytes xs ++ textBytes ys :=
  List.flatMap_append

/-- A character that is escaped is ASCII. -/
theorem not_isHigh_of_isEscaped {c : Char} (h : isEscaped c = true) : ¬ IsHigh c := by
  simp only [isEscaped, Bool.or_eq_true, beq_iff_eq] at h
  rcases h with (rfl | rfl) | rfl <;> decide

/-- Escaping the bytes of a value escapes the value. -/
theorem textBytes_escape (value : List Char) :
    textBytes (escape value) = escape (textBytes value) := by
  induction value with
  | nil => rfl
  | cons c cs ih =>
    rw [textBytes_cons, escape_append, ← ih, escape]
    cases hc : isEscaped c with
    | true =>
      have hcaret : charBytes '^' = ['^'] := charBytes_of_not_isHigh (by decide)
      have hbytes : charBytes c = [c] := charBytes_of_not_isHigh (not_isHigh_of_isEscaped hc)
      rw [if_pos rfl, textBytes_cons, textBytes_cons, hcaret, hbytes, escape, hc]
      rfl
    | false =>
      -- No byte of the character is escaped either.
      have hplain : ∀ b ∈ charBytes c, isEscaped b = false := by
        intro b hb
        by_cases hhigh : IsHigh c
        · exact Bool.eq_false_iff.2 fun hescaped =>
            not_isHigh_of_isEscaped hescaped (isHigh_of_mem_charBytes hhigh hb)
        · rw [charBytes_of_not_isHigh hhigh, List.mem_singleton] at hb
          rwa [hb]
      rw [escape_of_plain hplain]
      rfl

/-- Quoting the bytes of a value quotes the value. -/
theorem textBytes_quote (value : List Char) :
    textBytes (quote value) = quote (textBytes value) := by
  have hquote : charBytes '\'' = ['\''] := charBytes_of_not_isHigh (by decide)
  rw [quote, quote, textBytes_append, textBytes_cons, textBytes_escape, hquote, textBytes_cons,
    hquote]
  rfl

/-! ## A quoted value is one literal -/

/-- No quote of an escaped value closes its literal, and the quote behind it does. -/
theorem unclosed_escape (value : List Char) :
    Unclosed '\'' (escape value) ∧ trailingCarets (escape value) % 2 = 0 := by
  induction value using List.reverseRecOn with
  | nil => exact ⟨unclosed_nil '\'', rfl⟩
  | append_singleton value c ih =>
    obtain ⟨hopen, heven⟩ := ih
    rw [escape_append, escape, escape]
    cases hc : isEscaped c with
    | true =>
      -- The `^` before the character makes the run of them odd.
      have hcaret : Unclosed '\'' (escape value ++ ['^']) :=
        unclosed_concat.2 ⟨hopen, fun heq => absurd heq (by decide)⟩
      have hodd : trailingCarets (escape value ++ ['^']) = trailingCarets (escape value) + 1 := by
        rw [trailingCarets_concat, if_pos rfl]
      have hsplit : escape value ++ ['^', c] = (escape value ++ ['^']) ++ [c] := by simp
      rw [if_pos rfl, hsplit, unclosed_concat, trailingCarets_concat (escape value ++ ['^']), hodd]
      refine ⟨⟨hcaret, fun _ => by omega⟩, ?_⟩
      split <;> omega
    | false =>
      simp only [isEscaped, Bool.or_eq_false_iff, beq_eq_false_iff_ne] at hc
      rw [if_neg Bool.false_ne_true, unclosed_concat, trailingCarets_concat, if_neg hc.1.1]
      exact ⟨⟨hopen, fun heq => absurd heq hc.1.2⟩, rfl⟩

/-- A quoted value is one literal token, whatever was read before it and whatever follows it. -/
theorem isToken_quote (before : List Cell) (value rest : List Char) :
    IsToken before (quote value) rest .literal :=
  .literal '\'' (escape value) rest rfl (unclosed_escape value).1 (unclosed_escape value).2

/-- A text that begins with a quoted value is read as the literal, and then as code on a line that
is not blank. -/
theorem classifyBytes_quote_append (value rest : List Char) :
    classifyBytes (quote value ++ rest) = List.replicate (byteLength (quote value)) .literal ++
      regionBytes (cellsFrom none (.code false) rest) := by
  have hreads : Reads .start (quote value) (cellsIn .literal (quote value)) (.code false) :=
    reads_literal (.inl rfl) (readsAs_escape value) true
  rw [classifyBytes_eq_regionBytes, cellsFrom_append, hreads.cells_eq, hreads.after_eq,
    regionBytes_append, regionBytes_cellsIn]

/-! ## The value of the literal -/

/-- Without the `^` that escape, an escaped value is the value. -/
theorem withoutEscapes_escape (value : List Char) :
    withoutEscapes (.literal '\'' false) (escape value) = value := by
  induction value with
  | nil => rfl
  | cons c cs ih =>
    rw [escape]
    cases hc : isEscaped c with
    | true =>
      have hcaret : ∀ next, ((ReadState.literal '\'' false).step next '^').2 =
          .literal '\'' true := fun _ => rfl
      have hescaped : ∀ next, ((ReadState.literal '\'' true).step next c).2 =
          .literal '\'' false := fun _ => rfl
      rw [if_pos rfl, withoutEscapes, hcaret, withoutEscapes, hescaped, ih]
      rfl
    | false =>
      simp only [isEscaped, Bool.or_eq_false_iff, beq_eq_false_iff_ne] at hc
      have hplain : ∀ next, ((ReadState.literal '\'' false).step next c).2 =
          .literal '\'' false := fun next => by simp [ReadState.step, hc.1.1, hc.1.2]
      rw [if_neg Bool.false_ne_true, withoutEscapes, hplain, ih]
      rfl

/-- Different values are quoted differently. -/
theorem quote_injective : Function.Injective quote := by
  intro value other h
  have hescape : escape value = escape other := (List.append_inj' (List.cons.inj h).2 rfl).1
  rw [← withoutEscapes_escape value, hescape, withoutEscapes_escape]

/-! ## The literal of the input -/

/-- Behind text that leaves no literal open, the added fields are three, and the first has the path
of the input as its value, whatever the path holds; behind them a line begins. -/
theorem readFields_injectedFields {state : ReadState} (hstate : state.isLiteral = false)
    (body : List Char) (input : Path) :
    ∃ cells, Reads state (injectedFields (lineBreak body) input) cells .start ∧
      readFields (cells ++ [('}', .code)]) = some (addedFields input) := by
  obtain ⟨indent, hindent, hbreak⟩ := exists_lineBreak_eq body
  obtain ⟨cells, gap, hreads, hfields, hgap, hne⟩ := reads_injectedFields hstate hindent input
  refine ⟨cells ++ gap, hbreak ▸ hreads, ?_⟩
  have hstarts : StartsGap (gap ++ [('}', .code)]) := by
    obtain ⟨cell, gap, rfl⟩ := List.exists_cons_of_ne_nil hne
    exact StartsGap.of_cons (hgap cell List.mem_cons_self)
  have hclose : readFields (gap ++ [('}', .code)]) = some [] := by
    rw [readFields, skipGap_append hgap]
    rfl
  rw [List.append_assoc, hfields.read _ hstarts, hclose]
  simp

/-- The added fields begin with no slash. -/
theorem head?_beforeInput_append {indent : List Char} (hindent : IsIndent indent)
    (rest : List Char) : (beforeInput indent ++ rest).head?.or none ≠ some '/' := by
  cases indent with
  | nil => exact fun hhead => absurd (Option.some.inj hhead) (by decide)
  | cons c cs =>
    intro hhead
    have hslash := hindent c List.mem_cons_self
    rw [show c = '/' from Option.some.inj hhead] at hslash
    exact absurd hslash (by decide)

/-- Behind a declaration that leaves no literal open, the regions around the literal of the input
are the same for every input. -/
theorem exists_regions_ofNode {node : TargetNode}
    (h : (ReadState.start.after none (beforeFields node)).isLiteral = false) :
    ∃ front back, ∀ input, classifyBytes (Target.ofNode node input {}).text.toList =
      front ++ (List.replicate (byteLength (quote input.text.toList)) .literal ++ back) := by
  obtain ⟨indent, hindent, hbreak⟩ := exists_lineBreak_eq node.body
  obtain ⟨cells, hbefore⟩ := reads_beforeInput h hindent
  refine ⟨regionBytes (cellsFrom none .start (beforeFields node) ++ cells),
    regionBytes (cellsFrom none (.code false) (afterInput indent ++ afterFields node)),
    fun input => ?_⟩
  have hquote := (readsValue_quote input.text.toList).reads
  have htext : (Target.ofNode node input {}).text.toList = beforeFields node ++
      (beforeInput indent ++ (quote input.text.toList ++
        (afterInput indent ++ afterFields node))) := by
    rw [Target.ofNode, String.toList_ofList, targetText_eq_around, hbreak, injectedFields_eq_input]
    simp only [List.append_assoc]
  have hhead := head?_beforeInput_append hindent
    (quote input.text.toList ++ (afterInput indent ++ afterFields node))
  rw [htext, classifyBytes_eq_regionBytes, cellsFrom_append, cellsFrom_of_ne_slash hhead,
    ReadState.after_of_ne_slash hhead, cellsFrom_append, hbefore.cells_eq, hbefore.after_eq,
    cellsFrom_append, hquote.cells_eq, hquote.after_eq, ← regionBytes_cellsIn]
  simp only [regionBytes_append, List.append_assoc]

/-- Quoting and reading agree. A quoted value is one literal token, byte by byte, whatever follows
it; what follows is read as behind a character of code that is not at the start of its line; and
without the `^` that escape, the content of the literal is the value. So no two values are quoted
alike. The input of a target is the value of one added field, whatever its path holds, and the
regions around its literal do not depend on it. -/
theorem quote_roundTrip :
    (∀ before value rest, IsToken before (textBytes (quote value)) (textBytes rest) .literal) ∧
    (∀ value front rest, EndsInCode front rest →
      classifyBytes (quote value ++ rest) = List.replicate (byteLength (quote value)) .literal ++
        (classifyBytes (front ++ rest)).drop (byteLength front)) ∧
    (∀ value, ∃ content, quote value = '\'' :: (content ++ ['\'']) ∧
      withoutEscapes (.literal '\'' false) content = value) ∧
    Function.Injective quote ∧
    (∀ (state : ReadState) (body : List Char) (input : Path), state.isLiteral = false →
      ∃ cells, Reads state (injectedFields (lineBreak body) input) cells .start ∧
        readFields (cells ++ [('}', .code)]) = some (addedFields input)) ∧
    (∀ node, (ReadState.start.after none (beforeFields node)).isLiteral = false →
      ∃ front back, ∀ input, classifyBytes (Target.ofNode node input {}).text.toList =
        front ++ (List.replicate (byteLength (quote input.text.toList)) .literal ++ back)) := by
  refine ⟨fun before value rest => ?_, fun value front rest hfront => ?_, fun value => ?_,
    quote_injective, fun state body input hstate => readFields_injectedFields hstate body input,
    fun node hnode => exists_regions_ofNode hnode⟩
  · rw [textBytes_quote]
    exact isToken_quote before (textBytes value) (textBytes rest)
  · rw [drop_classifyBytes_of_endsInCode hfront, classifyBytes_quote_append]
  · exact ⟨escape value, rfl, withoutEscapes_escape value⟩

/-- A quote, a `^` and a `$` in a value, and a semicolon behind it, read as behind a name. -/
theorem quote_roundTrip_sample :
    classifyBytes (quote "it's^$".toList ++ "; x".toList) = List.replicate 11 .literal ++
        (classifyBytes (".A".toList ++ "; x".toList)).drop 2 ∧
      ∃ front back, ∀ input, classifyBytes (Target.ofNode sampleNode input {}).text.toList =
        front ++ (List.replicate (byteLength (quote input.text.toList)) .literal ++ back) := by
  obtain ⟨-, hfollows, -, -, -, htarget⟩ := quote_roundTrip
  have hcode : EndsInCode ".A".toList "; x".toList := ⟨[('.', .code)], 'A', by decide, by decide⟩
  exact ⟨hfollows "it's^$".toList ".A".toList "; x".toList hcode,
    htarget sampleNode (by decide +kernel)⟩

end SoloBuild.SingleFile
