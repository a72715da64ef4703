import Mathlib.Data.List.Induction
import SoloBuild.Proofs.HeaderSearch

/-!
# The grammar of a description's regions

A description is a row of tokens: literals, comments, and single characters of code. This module says
what the tokens are without any machine: where a literal or a comment may start, given all that was
read before it, and how far it reaches. Every text is such a row, and the reader of descriptions
gives each token its region.

## Key results

- `IsToken`, `LexedFrom`: the grammar
- `exists_token`: every text begins with a token
- `IsToken.reads`: the reader gives a token its region, and is in code after it
- `lexed_iff_classify`: the regions of a text are those of its tokens
-/

namespace SoloBuild.Description

/-! ## The grammar -/

/-- The ASCII blanks. -/
def isAsciiBlank (c : Char) : Bool :=
  c == ' ' || c == '\t' || c == '\n' || c == '\x0c' || c == '\r'

/-- The number of `^` that a text ends with. -/
def trailingCarets (text : List Char) : Nat :=
  (text.reverse.takeWhile (· == '^')).length

/-- No quote in the content of a literal closes it: an odd number of `^` stands before each. -/
def Unclosed (quote : Char) (content : List Char) : Prop :=
  ∀ front back, content = front ++ quote :: back → trailingCarets front % 2 = 1

/-- A newline ends its line unless it lies in a literal. -/
def endsLine (cell : Cell) : Bool :=
  cell.1 == '\n' && cell.2 != .literal

/-- What was read since the last end of a line, the latest first. -/
def currentLine (before : List Cell) : List Cell :=
  before.reverse.takeWhile fun cell => !endsLine cell

/-- Only blanks were read since the last end of a line. -/
def atLineStart (before : List Cell) : Bool :=
  (currentLine before).all fun cell => isAsciiBlank cell.1

/-- A comment starts with two slashes, or with a semicolon at the start of its line. -/
inductive StartsComment (before : List Cell) : List Char → Prop where
  | slashes (rest : List Char) : StartsComment before ('/' :: '/' :: rest)
  | semicolon (rest : List Char) (hline : atLineStart before = true) : StartsComment before (';' :: rest)

/-- The token that stands between what was read before and the rest of the text, and its region. -/
inductive IsToken (before : List Cell) : (token rest : List Char) → Region → Prop where
  /-- A literal runs through the first quote that closes it. -/
  | literal (quote : Char) (content rest : List Char) (hquote : isQuote quote = true)
      (hcontent : Unclosed quote content) (hcloses : trailingCarets content % 2 = 0) :
      IsToken before (quote :: (content ++ [quote])) rest .literal
  /-- A literal that nothing closes runs to the end of the text. -/
  | openLiteral (quote : Char) (content : List Char) (hquote : isQuote quote = true)
      (hcontent : Unclosed quote content) : IsToken before (quote :: content) [] .literal
  /-- A comment runs through the end of its line. -/
  | comment (body rest : List Char) (hstarts : StartsComment before (body ++ '\n' :: rest))
      (hbody : '\n' ∉ body) : IsToken before (body ++ ['\n']) rest .comment
  /-- A comment in the last line runs to the end of the text. -/
  | lastComment (body : List Char) (hstarts : StartsComment before body) (hbody : '\n' ∉ body) :
      IsToken before body [] .comment
  | code (c : Char) (rest : List Char) (hquote : isQuote c = false)
      (hcomment : ¬ StartsComment before (c :: rest)) : IsToken before [c] rest .code

/-- The regions of a text, token by token, after what was read before. -/
inductive LexedFrom : (before : List Cell) → List Char → List Region → Prop where
  | nil (before : List Cell) : LexedFrom before [] []
  | cons {before : List Cell} {token rest : List Char} {region : Region} {regions : List Region}
      (htoken : IsToken before token rest region)
      (hrest : LexedFrom (before ++ cellsIn region token) rest regions) :
      LexedFrom before (token ++ rest) (List.replicate token.length region ++ regions)

/-- The regions of a whole text, token by token. -/
def Lexed (text : List Char) (regions : List Region) : Prop :=
  LexedFrom [] text regions

/-! ## The ends of literals -/

theorem trailingCarets_concat (text : List Char) (c : Char) :
    trailingCarets (text ++ [c]) = if c = '^' then trailingCarets text + 1 else 0 := by
  rw [trailingCarets, List.reverse_concat, List.takeWhile_cons]
  by_cases hc : c = '^'
  · simp [hc, trailingCarets]
  · simp [hc]

theorem unclosed_nil (quote : Char) : Unclosed quote [] := by
  intro front back hsplit
  simp at hsplit

/-- One more character does not close a literal unless it is a quote that is not escaped. -/
theorem unclosed_concat {quote : Char} {content : List Char} {c : Char} :
    Unclosed quote (content ++ [c]) ↔
      Unclosed quote content ∧ (c = quote → trailingCarets content % 2 = 1) := by
  constructor
  · intro h
    refine ⟨fun front back hsplit => ?_, fun hc => ?_⟩
    · exact h front (back ++ [c]) (by rw [hsplit]; simp)
    · exact h content [] (by rw [hc])
  · rintro ⟨hcontent, hc⟩ front back hsplit
    obtain rfl | ⟨back, last, rfl⟩ := List.eq_nil_or_concat back
    · obtain ⟨rfl, heq⟩ := List.append_inj' hsplit rfl
      exact hc (List.cons.inj heq).1
    · rw [List.concat_eq_append, ← List.cons_append, ← List.append_assoc] at hsplit
      obtain ⟨rfl, -⟩ := List.append_inj' hsplit rfl
      exact hcontent front back rfl

/-- A text closes a literal at some first place, or does not close it at all. -/
theorem unclosed_or_exists_close (quote : Char) (text : List Char) :
    Unclosed quote text ∨
      ∃ content rest, text = content ++ quote :: rest ∧ Unclosed quote content ∧
        trailingCarets content % 2 = 0 := by
  induction text using List.reverseRecOn with
  | nil => exact .inl (unclosed_nil quote)
  | append_singleton text c ih =>
    obtain hopen | ⟨content, rest, rfl, hcontent, hcloses⟩ := ih
    · by_cases hc : c = quote ∧ trailingCarets text % 2 = 0
      · exact .inr ⟨text, [], by rw [hc.1], hopen, hc.2⟩
      · refine .inl (unclosed_concat.2 ⟨hopen, fun heq => ?_⟩)
        have heven : trailingCarets text % 2 ≠ 0 := fun hzero => hc ⟨heq, hzero⟩
        omega
    · exact .inr ⟨content, rest ++ [c], by simp, hcontent, hcloses⟩

/-! ## Every text is a row of tokens -/

/-- Every text that is not empty begins with a token. -/
theorem exists_token (before : List Cell) (c : Char) (cs : List Char) :
    ∃ d token rest region, c :: cs = d :: token ++ rest ∧ IsToken before (d :: token) rest region := by
  -- A quote opens a literal whatever was read before; what starts a comment is no quote.
  by_cases hquote : isQuote c = true
  · obtain hopen | ⟨content, rest, rfl, hcontent, hcloses⟩ := unclosed_or_exists_close c cs
    · exact ⟨c, cs, [], .literal, by simp, .openLiteral c cs hquote hopen⟩
    · exact ⟨c, content ++ [c], rest, .literal, by simp,
        .literal c content rest hquote hcontent hcloses⟩
  · by_cases hcomment : StartsComment before (c :: cs)
    · by_cases hnewline : '\n' ∈ c :: cs
      · obtain ⟨body, rest, hsplit, hbody⟩ := List.eq_append_cons_of_mem hnewline
        rw [hsplit] at hcomment
        cases body with
        -- A newline starts no comment.
        | nil => cases hcomment
        | cons d body =>
          exact ⟨d, body ++ ['\n'], rest, .comment, by simp [hsplit],
            .comment (d :: body) rest hcomment hbody⟩
      · exact ⟨c, cs, [], .comment, by simp, .lastComment (c :: cs) hcomment hnewline⟩
    · exact ⟨c, [], cs, .code, rfl, .code c cs (eq_false_of_ne_true hquote) hcomment⟩

theorem exists_lexedFrom (before : List Cell) (text : List Char) :
    ∃ regions, LexedFrom before text regions := by
  cases text with
  | nil => exact ⟨[], .nil before⟩
  | cons c cs =>
    obtain ⟨d, token, rest, region, hsplit, htoken⟩ := exists_token before c cs
    have hshorter : rest.length < (c :: cs).length := by
      rw [hsplit, List.length_append, List.length_cons]
      omega
    obtain ⟨regions, hrest⟩ := exists_lexedFrom (before ++ cellsIn region (d :: token)) rest
    rw [hsplit]
    exact ⟨_, .cons htoken hrest⟩
termination_by text.length
decreasing_by exact hshorter

/-! ## The start of a line -/

theorem isAsciiBlank_eq (c : Char) : isAsciiBlank c = (c == '\n' || ReadState.isIndent c) := by
  simp only [isAsciiBlank, ReadState.isIndent]
  grind

/-- One more character puts the reading at the start of a line when it ends a line, or when it is a
blank at the start of one. -/
theorem atLineStart_concat (before : List Cell) (cell : Cell) :
    atLineStart (before ++ [cell]) =
      (endsLine cell || (atLineStart before && isAsciiBlank cell.1)) := by
  rw [atLineStart, currentLine, List.reverse_concat, List.takeWhile_cons]
  cases hends : endsLine cell with
  | true => simp
  | false => simp [atLineStart, currentLine, Bool.and_comm]

/-- The last character of a piece decides whether the reading is at the start of a line after it. -/
theorem atLineStart_cellsIn_concat (before : List Cell) (region : Region) (front : List Char)
    (c : Char) :
    atLineStart (before ++ cellsIn region (front ++ [c])) =
      (endsLine (c, region) || (atLineStart (before ++ cellsIn region front) && isAsciiBlank c)) := by
  have hcells : before ++ cellsIn region (front ++ [c]) =
      (before ++ cellsIn region front) ++ [(c, region)] := by
    simp [cellsIn]
  rw [hcells, atLineStart_concat]

/-! ## The reader follows the grammar -/

/-- Where a comment starts in code, the reader enters one. -/
theorem step_of_startsComment {before : List Cell} {c : Char} {cs : List Char}
    (h : StartsComment before (c :: cs)) :
    (ReadState.code (atLineStart before)).step cs.head? c = (.comment, .comment) := by
  cases h with
  | slashes rest => simp [ReadState.step]
  | semicolon rest hline => simp [ReadState.step, hline]

/-- Where neither a literal nor a comment starts in code, the reader stays in code. -/
theorem step_of_not_startsComment {before : List Cell} {c : Char} {cs : List Char}
    (hquote : isQuote c = false) (h : ¬ StartsComment before (c :: cs)) :
    (ReadState.code (atLineStart before)).step cs.head? c =
      (.code, .code (atLineStart (before ++ [(c, .code)]))) := by
  have hopens : ¬ (c = '\'' ∨ c = '"') := by
    simpa [isQuote] using hquote
  have hslashes : ¬ (c = '/' ∧ cs.head? = some '/') := by
    rintro ⟨rfl, hhead⟩
    obtain ⟨rest, rfl⟩ := List.head?_eq_some_iff.1 hhead
    exact h (.slashes rest)
  have hsemicolon : ¬ (c = ';' ∧ atLineStart before = true) := by
    rintro ⟨rfl, hline⟩
    exact h (.semicolon cs hline)
  rw [atLineStart_concat, isAsciiBlank_eq, ReadState.step, if_neg hopens, if_neg hslashes,
    if_neg hsemicolon]
  by_cases hnewline : c = '\n'
  · simp [hnewline, endsLine]
  · have hfalse : (c == '\n') = false := beq_eq_false_iff_ne.2 hnewline
    simp [hnewline, hfalse, endsLine]

/-- What does not close a literal is read inside it; the reader counts the `^` at its end. -/
theorem readsAs_unclosed {quote : Char} {content : List Char} (h : Unclosed quote content)
    (next : Option Char) :
    ReadsAs next (.literal quote false) content .literal
      (.literal quote (trailingCarets content % 2 == 1)) := by
  induction content using List.reverseRecOn generalizing next with
  | nil => exact ReadsAs.nil
  | append_singleton content c ih =>
    obtain ⟨hcontent, hescaped⟩ := unclosed_concat.1 h
    refine (ih hcontent _).append (ReadsAs.cons ?_ ReadsAs.nil)
    rw [trailingCarets_concat]
    by_cases hodd : trailingCarets content % 2 = 1
    · -- An escaped `^` makes the run even, any other escaped character ends it.
      have heven : (trailingCarets content + 1) % 2 = 0 := by omega
      by_cases hc : c = '^' <;> simp [ReadState.step, hodd, hc, heven]
    · have hclear : (trailingCarets content % 2 == 1) = false := by simpa using hodd
      have hne : c ≠ quote := fun heq => hodd (hescaped heq)
      rw [hclear]
      by_cases hc : c = '^'
      · have hnext : (trailingCarets content + 1) % 2 = 1 := by omega
        simp [ReadState.step, hc, hnext]
      · simp [ReadState.step, hc, hne]

/-- A comment is read to the end of its line, or of the text. -/
theorem readsAs_of_startsComment {before : List Cell} {body rest : List Char}
    (hstarts : StartsComment before (body ++ rest)) (hbody : '\n' ∉ body) (hne : body ≠ []) :
    ReadsAs rest.head? (.code (atLineStart before)) body .comment .comment := by
  obtain ⟨c, cs, rfl⟩ := List.exists_cons_of_ne_nil hne
  have hstep := @step_of_startsComment before c (cs ++ rest) hstarts
  have hrest : '\n' ∉ cs := fun hmem => hbody (List.mem_cons_of_mem c hmem)
  rw [List.head?_append] at hstep
  exact ReadsAs.cons hstep (readsAs_comment hrest _)

/-- The reader gives a token its region. When more text follows, it is in code after the token, and
knows whether its line holds only blanks. -/
theorem IsToken.reads {before : List Cell} {token rest : List Char} {region : Region}
    (h : IsToken before token rest region) :
    ∃ final, ReadsAs rest.head? (.code (atLineStart before)) token region final ∧
      (rest ≠ [] → final = .code (atLineStart (before ++ cellsIn region token))) := by
  cases h with
  | literal quote content rest hquote hcontent hcloses =>
    have hcaret : quote ≠ '^' := by
      rcases isQuote_cases hquote with rfl | rfl <;> decide
    have hline : atLineStart (before ++ cellsIn .literal (quote :: (content ++ [quote]))) = false := by
      rw [← List.cons_append, atLineStart_cellsIn_concat]
      rcases isQuote_cases hquote with rfl | rfl <;> simp [endsLine, isAsciiBlank]
    -- The opening quote enters the literal; the closing one leaves it, since the run of `^` before
    -- it is even.
    refine ⟨.code false, ReadsAs.cons ?_ ((readsAs_unclosed hcontent _).append
      (ReadsAs.cons ?_ ReadsAs.nil)), fun _ => by rw [hline]⟩
    · rcases isQuote_cases hquote with rfl | rfl <;> rfl
    · simp [ReadState.step, hcloses, hcaret]
  | openLiteral quote content hquote hcontent =>
    refine ⟨_, ReadsAs.cons ?_ (readsAs_unclosed hcontent _), fun hne => absurd rfl hne⟩
    rcases isQuote_cases hquote with rfl | rfl <;> rfl
  | comment body rest hstarts hbody =>
    have hne : body ≠ [] := by
      rintro rfl
      cases hstarts
    have hread := readsAs_of_startsComment hstarts hbody hne
    have hend : ReadsAs rest.head? .comment ['\n'] .comment (.code true) :=
      ReadsAs.cons rfl ReadsAs.nil
    refine ⟨.code true, ReadsAs.append hread hend, fun _ => ?_⟩
    rw [atLineStart_cellsIn_concat]
    simp [endsLine]
  | lastComment _ hstarts hbody =>
    have hne : token ≠ [] := by
      rintro rfl
      cases hstarts
    rw [← List.append_nil token] at hstarts
    have hread := readsAs_of_startsComment hstarts hbody hne
    exact ⟨.comment, hread, fun hrest => absurd rfl hrest⟩
  | code c rest hquote hcomment =>
    have hstep := step_of_not_startsComment hquote hcomment
    exact ⟨_, ReadsAs.cons hstep ReadsAs.nil, fun _ => rfl⟩

/-- Tokens in a row have the regions that the reader gives them. -/
theorem LexedFrom.regions_eq {before : List Cell} {text : List Char} {regions : List Region}
    (h : LexedFrom before text regions) :
    regions = regionsFrom none (.code (atLineStart before)) text := by
  induction h with
  | nil before => rfl
  | @cons before token rest region regions htoken hrest ih =>
    obtain ⟨final, hread, hfinal⟩ := htoken.reads
    rw [regionsFrom_append, Option.or_none, hread.regions, hread.after, ih]
    congr 1
    -- After the last token it does not matter where the reader stands.
    by_cases hend : rest = []
    · rw [hend]; rfl
    · rw [hfinal hend]

/-- The regions that the tokens of a text give it are those that the reader gives it. -/
theorem lexed_iff_classify {text : List Char} {regions : List Region} :
    Lexed text regions ↔ regions = classify text := by
  constructor
  · intro h
    exact h.regions_eq
  · rintro rfl
    obtain ⟨regions, h⟩ := exists_lexedFrom [] text
    have hregions : regions = classify text := h.regions_eq
    rwa [← hregions]

end SoloBuild.Description
