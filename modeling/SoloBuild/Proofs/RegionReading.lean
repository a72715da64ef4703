import SoloBuild.Description.Block
import SoloBuild.Text.Blank

/-!
# Reading a description piece by piece

The reader of a description is a small machine: a state and one character of lookahead. This module
says what it does to the pieces that declarations are made of, so that later proofs compose pieces
and never unfold the machine.

## Key results

- `after_append` / `cellsFrom_append`: a text is read piece by piece
- `step_code_cases`, `step_literal_cases`, `step_comment_cases`: what one character can do
- `cellsFrom_of_ne_slash` / `after_of_ne_slash`: what follows a text matters only when it is a slash
- `readsAs_code`, `readsAs_literal`, `readsAs_comment`: plain code, inside a literal, a comment
- `Reads.append`: pieces that are read alike whatever follows them
-/

namespace SoloBuild.Description

/-- A property of the characters of a text is decided along the text, never over all characters. -/
instance (priority := high) decidableForallMem (text : List Char) (p : Char → Prop)
    [DecidablePred p] : Decidable (∀ c ∈ text, p c) :=
  List.decidableBAll p text

/-- What may stand before a comment at the start of a line is blank. -/
theorem isBlank_of_isIndent {c : Char} (h : ReadState.isIndent c = true) :
    Text.isBlank c = true := by
  simp only [ReadState.isIndent, Bool.or_eq_true, beq_iff_eq] at h
  rcases h with ((rfl | rfl) | rfl) | rfl <;> decide

/-- The cells of a text read from a state, when `next` follows the text. -/
def cellsFrom (next : Option Char) (state : ReadState) (text : List Char) : List Cell :=
  text.zip (regionsFrom next state text)

@[simp] theorem cellsFrom_nil (next : Option Char) (state : ReadState) :
    cellsFrom next state [] = [] := rfl

@[simp] theorem map_fst_cellsFrom (next : Option Char) (state : ReadState) (text : List Char) :
    (cellsFrom next state text).map Prod.fst = text := by
  rw [cellsFrom, List.map_fst_zip]
  simp

@[simp] theorem map_snd_cellsFrom (next : Option Char) (state : ReadState) (text : List Char) :
    (cellsFrom next state text).map Prod.snd = regionsFrom next state text := by
  rw [cellsFrom, List.map_snd_zip]
  simp

namespace ReadState

/-- The state is inside a literal. -/
def isLiteral : ReadState → Bool
  | .literal .. => true
  | _ => false

@[simp] theorem isLiteral_code (lineStart : Bool) : (code lineStart).isLiteral = false := rfl

@[simp] theorem isLiteral_start : start.isLiteral = false := rfl

/-- Where the reading stands after two pieces: the first is followed by the second. -/
theorem after_append (next : Option Char) (state : ReadState) (xs ys : List Char) :
    state.after next (xs ++ ys) = (state.after (ys.head?.or next) xs).after next ys := by
  induction xs generalizing state with
  | nil => rfl
  | cons c cs ih =>
    -- Only the last character of the first piece looks ahead into the second.
    have hhead : (cs ++ ys).head?.or next = cs.head?.or (ys.head?.or next) := by
      cases cs <;> simp
    simp only [List.cons_append, after, hhead, ih]

/-- What a character in code can do: open a literal or a comment, end the line, or stay in it. -/
theorem step_code_cases (lineStart : Bool) (next : Option Char) (c : Char) :
    (code lineStart).step next c = (.literal, .literal c false) ∧ (c = '\'' ∨ c = '"') ∨
      (code lineStart).step next c = (.comment, .comment) ∨
      (code lineStart).step next c = (.code, .start) ∧ c = '\n' ∨
      (code lineStart).step next c = (.code, .code (lineStart && isIndent c)) := by
  simp only [step]
  split
  · rename_i hquote
    exact .inl ⟨rfl, hquote⟩
  · split
    · exact .inr (.inl rfl)
    · split
      · exact .inr (.inl rfl)
      · split
        · rename_i hnewline
          exact .inr (.inr (.inl ⟨rfl, hnewline⟩))
        · exact .inr (.inr (.inr rfl))

/-- What a character in a literal can do: stay in it, escaped or not, or close it. -/
theorem step_literal_cases (quote : Char) (escaped : Bool) (next : Option Char) (c : Char) :
    (∃ escaped', (literal quote escaped).step next c = (.literal, .literal quote escaped')) ∨
      (literal quote escaped).step next c = (.literal, .code false) := by
  simp only [step]
  split
  · exact .inl ⟨false, rfl⟩
  · split
    · exact .inl ⟨true, rfl⟩
    · split
      · exact .inr rfl
      · exact .inl ⟨false, rfl⟩

/-- What a character in a comment can do: end it with its line, or stay in it. -/
theorem step_comment_cases (next : Option Char) (c : Char) :
    comment.step next c = (.comment, .start) ∧ c = '\n' ∨
      comment.step next c = (.comment, .comment) := by
  by_cases hnewline : c = '\n'
  · exact .inl ⟨by rw [step, if_pos hnewline]; rfl, hnewline⟩
  · exact .inr (by rw [step, if_neg hnewline])

/-- Every character in a literal is part of it, its closing quote too. -/
theorem step_of_isLiteral {state : ReadState} (h : state.isLiteral = true) (next : Option Char)
    (c : Char) : (state.step next c).1 = .literal := by
  cases state with
  | code lineStart => cases h
  | literal quote escaped =>
    rcases step_literal_cases quote escaped next c with ⟨escaped', hstep⟩ | hstep
    · rw [hstep]
    · rw [hstep]
  | comment => cases h

/-- A character of code is met in code. -/
theorem exists_code_of_step {state : ReadState} {next : Option Char} {c : Char}
    (h : (state.step next c).1 = .code) : ∃ lineStart, state = .code lineStart := by
  cases state with
  | code lineStart => exact ⟨lineStart, rfl⟩
  | literal quote escaped =>
    rw [step_of_isLiteral rfl] at h
    cases h
  | comment => cases h

/-- The lookahead of one step matters only when it is a slash. -/
theorem step_of_ne_slash {next : Option Char} (h : next ≠ some '/') (state : ReadState) (c : Char) :
    state.step next c = state.step none c := by
  cases state with
  -- Code alone looks ahead, for the second slash of a comment.
  | code lineStart => simp only [step, h, and_false, reduceCtorEq]
  | literal quote escaped => rfl
  | comment => rfl

/-- What follows a text matters to the state after it only when it is a slash. -/
theorem after_of_ne_slash {next : Option Char} (h : next ≠ some '/') (state : ReadState)
    (text : List Char) : state.after next text = state.after none text := by
  induction text generalizing state with
  | nil => rfl
  | cons c cs ih =>
    cases cs with
    | nil => simp only [after, List.head?_nil, Option.none_or, step_of_ne_slash h]
    | cons d ds => simp only [after, List.head?_cons, Option.some_or] at ih ⊢; rw [ih]

end ReadState

/-- The region of the first character, and the regions of the rest. -/
theorem regionsFrom_cons (next : Option Char) (state : ReadState) (c : Char) (cs : List Char) :
    regionsFrom next state (c :: cs) =
      (state.step (cs.head?.or next) c).1 ::
        regionsFrom next (state.step (cs.head?.or next) c).2 cs := rfl

/-- What follows a text matters to its regions only when it is a slash. -/
theorem regionsFrom_of_ne_slash {next : Option Char} (h : next ≠ some '/') (state : ReadState)
    (text : List Char) : regionsFrom next state text = regionsFrom none state text := by
  induction text generalizing state with
  | nil => rfl
  | cons c cs ih =>
    cases cs with
    | nil => simp only [regionsFrom, List.head?_nil, Option.none_or, ReadState.step_of_ne_slash h]
    | cons d ds =>
      rw [regionsFrom_cons next state c, regionsFrom_cons none state c, ih]
      rfl

/-- What follows a text matters to its cells only when it is a slash. -/
theorem cellsFrom_of_ne_slash {next : Option Char} (h : next ≠ some '/') (state : ReadState)
    (text : List Char) : cellsFrom next state text = cellsFrom none state text := by
  rw [cellsFrom, cellsFrom, regionsFrom_of_ne_slash h]

/-- The cells of two pieces: the first is followed by the second. -/
theorem cellsFrom_append (next : Option Char) (state : ReadState) (xs ys : List Char) :
    cellsFrom next state (xs ++ ys) =
      cellsFrom (ys.head?.or next) state xs ++
        cellsFrom next (state.after (ys.head?.or next) xs) ys := by
  rw [cellsFrom, regionsFrom_append, List.zip_append (by simp)]
  rfl

/-- The cell of the first character, and the cells of the rest. -/
theorem cellsFrom_cons (next : Option Char) (state : ReadState) (c : Char) (cs : List Char) :
    cellsFrom next state (c :: cs) =
      (c, (state.step (cs.head?.or next) c).1) ::
        cellsFrom next (state.step (cs.head?.or next) c).2 cs := rfl

/-! ## Pieces that lie in one region -/

/-- Reading `text` from `state` meets one region only, and stops at `final`. -/
structure ReadsAs (next : Option Char) (state : ReadState) (text : List Char) (region : Region)
    (final : ReadState) : Prop where
  regions : regionsFrom next state text = List.replicate text.length region
  after : state.after next text = final

namespace ReadsAs

variable {next : Option Char} {state middle final : ReadState} {xs ys : List Char} {c : Char}
  {region : Region}

theorem nil : ReadsAs next state [] region state := ⟨rfl, rfl⟩

theorem cons (hstep : state.step (xs.head?.or next) c = (region, middle))
    (h : ReadsAs next middle xs region final) : ReadsAs next state (c :: xs) region final := by
  constructor
  · rw [regionsFrom_cons, hstep, h.regions, List.length_cons, List.replicate_succ]
  · rw [ReadState.after, hstep, h.after]

theorem append (hx : ReadsAs (ys.head?.or next) state xs region middle)
    (hy : ReadsAs next middle ys region final) :
    ReadsAs next state (xs ++ ys) region final := by
  constructor
  · rw [regionsFrom_append, hx.regions, hx.after, hy.regions,
      List.replicate_append_replicate, List.length_append]
  · rw [ReadState.after_append, hx.after, hy.after]

/-- Every cell of the piece lies in its region. -/
theorem cells (h : ReadsAs next state xs region final) :
    cellsFrom next state xs = xs.map fun c => (c, region) := by
  rw [cellsFrom, h.regions]
  clear h
  induction xs with
  | nil => rfl
  | cons c cs ih => simp [List.replicate_succ, ih]

end ReadsAs

/-- A character that opens neither a literal nor a comment. -/
def isCodeChar (c : Char) : Bool :=
  c != '\'' && c != '"' && c != '/' && c != ';'

/-- Whether only blanks were met since the line began, after reading code. -/
def lineStartAfter (lineStart : Bool) (code : List Char) : Bool :=
  code.foldl (fun lineStart c => c == '\n' || (lineStart && ReadState.isIndent c)) lineStart

/-- One character of plain code. -/
theorem step_isCodeChar {c : Char} (h : isCodeChar c = true) (next : Option Char)
    (lineStart : Bool) :
    (ReadState.code lineStart).step next c =
      (.code, .code (c == '\n' || (lineStart && ReadState.isIndent c))) := by
  simp only [isCodeChar, Bool.and_eq_true, bne_iff_ne, ne_eq] at h
  obtain ⟨⟨⟨hquote, hdouble⟩, hslash⟩, hsemi⟩ := h
  by_cases hnl : c = '\n'
  · simp [ReadState.step, hnl]
  · simp [ReadState.step, hquote, hdouble, hslash, hsemi, hnl]

/-- Plain code is code. -/
theorem readsAs_code {code : List Char} (h : ∀ c ∈ code, isCodeChar c = true)
    (next : Option Char) (lineStart : Bool) :
    ReadsAs next (.code lineStart) code .code (.code (lineStartAfter lineStart code)) := by
  induction code generalizing lineStart with
  | nil => exact ReadsAs.nil
  | cons c cs ih =>
    have htail := ih (fun d hd => h d (List.mem_cons_of_mem c hd))
      (c == '\n' || (lineStart && ReadState.isIndent c))
    exact ReadsAs.cons (step_isCodeChar (h c List.mem_cons_self) _ _) htail

/-- The inside of a literal, as long as neither its quote nor an escape is met. -/
theorem readsAs_literal {quote : Char} {content : List Char}
    (h : ∀ c ∈ content, c ≠ quote ∧ c ≠ '^') (next : Option Char) :
    ReadsAs next (.literal quote false) content .literal (.literal quote false) := by
  induction content with
  | nil => exact ReadsAs.nil
  | cons c cs ih =>
    obtain ⟨hquote, hcaret⟩ := h c List.mem_cons_self
    refine ReadsAs.cons ?_ (ih fun d hd => h d (List.mem_cons_of_mem c hd))
    simp [ReadState.step, hquote, hcaret]

/-- The rest of a comment, as long as its line does not end. -/
theorem readsAs_comment {text : List Char} (h : '\n' ∉ text) (next : Option Char) :
    ReadsAs next .comment text .comment .comment := by
  induction text with
  | nil => exact ReadsAs.nil
  | cons c cs ih =>
    simp only [List.mem_cons, not_or] at h
    refine ReadsAs.cons ?_ (ih h.2)
    simp [ReadState.step, Ne.symm h.1]

/-! ## Pieces of several regions -/

/-- The cells of a text that lies in one region. -/
def cellsIn (region : Region) (text : List Char) : List Cell :=
  text.map fun c => (c, region)

@[simp] theorem cellsIn_nil (region : Region) : cellsIn region [] = [] := rfl

@[simp] theorem cellsIn_cons (region : Region) (c : Char) (cs : List Char) :
    cellsIn region (c :: cs) = (c, region) :: cellsIn region cs := rfl

@[simp] theorem map_fst_cellsIn (region : Region) (text : List Char) :
    (cellsIn region text).map Prod.fst = text := by
  simp [cellsIn, Function.comp_def]

/-- A property of the cells of a text that lies in one region, by its characters. -/
theorem forall_mem_cellsIn {p : Cell → Prop} {region : Region} {text : List Char} :
    (∀ cell ∈ cellsIn region text, p cell) ↔ ∀ c ∈ text, p (c, region) :=
  List.forall_mem_map

/-- Reading `text` from `state` gives the cells and stops at `final`, whatever follows the text. -/
structure Reads (state : ReadState) (text : List Char) (cells : List Cell) (final : ReadState) :
    Prop where
  cells_eq : ∀ next, cellsFrom next state text = cells
  after_eq : ∀ next, state.after next text = final

namespace Reads

variable {state middle final : ReadState} {xs ys : List Char} {cs ds : List Cell}

theorem nil : Reads state [] [] state := ⟨fun _ => rfl, fun _ => rfl⟩

/-- A piece that lies in one region, whatever follows it. -/
theorem of_readsAs {region : Region} (h : ∀ next, ReadsAs next state xs region final) :
    Reads state xs (cellsIn region xs) final :=
  ⟨fun next => (h next).cells, fun next => (h next).after⟩

theorem append (hx : Reads state xs cs middle) (hy : Reads middle ys ds final) :
    Reads state (xs ++ ys) (cs ++ ds) final := by
  constructor
  · intro next
    rw [cellsFrom_append, hx.cells_eq, hx.after_eq, hy.cells_eq]
  · intro next
    rw [ReadState.after_append, hx.after_eq, hy.after_eq]

end Reads

/-- Plain code, whatever follows it. -/
theorem reads_code {code : List Char} (h : ∀ c ∈ code, isCodeChar c = true) (lineStart : Bool) :
    Reads (.code lineStart) code (cellsIn .code code) (.code (lineStartAfter lineStart code)) :=
  Reads.of_readsAs fun next => readsAs_code h next lineStart

/-- A literal: the text between its quotes is read inside it. -/
theorem reads_literal {quote : Char} (hquote : quote = '\'' ∨ quote = '"') {content : List Char}
    (h : ∀ next, ReadsAs next (.literal quote false) content .literal (.literal quote false))
    (lineStart : Bool) :
    Reads (.code lineStart) (quote :: (content ++ [quote]))
      (cellsIn .literal (quote :: (content ++ [quote]))) (.code false) := by
  have hcaret : quote ≠ '^' := by
    rcases hquote with rfl | rfl <;> decide
  refine Reads.of_readsAs fun next => ReadsAs.cons ?_ ((h _).append (ReadsAs.cons ?_ ReadsAs.nil))
  -- The opening quote enters the literal; the closing one leaves it, since no `^` stands before it.
  · simp [ReadState.step, hquote]
  · simp [ReadState.step, hcaret]

end SoloBuild.Description
