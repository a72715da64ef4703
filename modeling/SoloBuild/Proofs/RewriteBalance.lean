import SoloBuild.Proofs.RewriteFields

/-!
# When a single-file target keeps its block

Whole lines are dropped from a declaration by the words they mention, whatever braces and quotes
they hold besides. So the target is not always a declaration: it is one exactly when the lines that
are kept still end with the closing brace and, before it, leave one block open outside literals.
The blanks that are cut and the fields that are added change nothing about that.

## Key results

- `isBalanced_iff`: a text is balanced when its last character closes its first block
- `leavesBlockOpen_trimEnd`: blanks at the end change neither the state nor the depth
- `exists_cells_injectedFields`: the added fields bring in no braces outside literals
- `isBalanced_targetText_iff`: when the target is balanced for every input
- `isBalanced_targetText_of_plain`: the target of a plain declaration is
- `not_isBalanced_targetText`: a declaration whose opening brace is dropped with its first field
-/

namespace SoloBuild.Description

open Text

/-- The first block of the text is closed by the last character of the text. -/
def IsBalanced (text : List Char) : Prop :=
  ∃ opening, balancedBlock (text.zip (classify text)) 0 = some (opening, byteLength text - 1)

/-- How many braces are open at the end of the cells, from their first opening brace on; nothing
    when there is none, or when its block is closed on the way. -/
def blockDepth : List Cell → Option Nat
  | [] => none
  | cell :: cells => if cell = ('{', .code) then depthAfter 1 cells else blockDepth cells

/-- Text behind a header that leaves one block open, outside literals. -/
structure LeavesBlockOpen (front : List Char) : Prop where
  /-- A brace behind the text is no part of a literal. -/
  outside : ((ReadState.code false).after none front).isLiteral = false
  /-- A brace behind the text closes its first block. -/
  depth : blockDepth (cellsFrom none (.code false) front) = some 1

/-! ## The block of a text -/

/-- A piece before the first opening brace does not count. -/
theorem blockDepth_append_left {xs : List Cell} (h : ('{', Region.code) ∉ xs) (ys : List Cell) :
    blockDepth (xs ++ ys) = blockDepth ys := by
  induction xs with
  | nil => rfl
  | cons cell xs ih =>
    simp only [List.mem_cons, not_or] at h
    rw [List.cons_append, blockDepth, if_neg (Ne.symm h.1), ih h.2]

/-- A piece without braces behind others does not count. -/
theorem blockDepth_append_right (xs : List Cell) {ys : List Cell}
    (h : ∀ cell ∈ ys, notBrace cell) : blockDepth (xs ++ ys) = blockDepth xs := by
  induction xs with
  | nil =>
    have hopen : ('{', Region.code) ∉ ys := fun hmem => (h _ hmem rfl).1 rfl
    have hleft := blockDepth_append_left hopen []
    rwa [List.append_nil] at hleft
  | cons cell xs ih =>
    rw [List.cons_append, blockDepth, blockDepth, ih]
    split
    · rw [depthAfter_append]
      cases depthAfter 1 xs with
      | none => rfl
      | some depth => exact depthAfter_of_notBrace h depth
    · rfl

theorem blockDepth_eq_some_iff {cells : List Cell} {depth : Nat} :
    blockDepth cells = some depth ↔
      ∃ xs ys, cells = xs ++ ('{', .code) :: ys ∧ ('{', Region.code) ∉ xs ∧
        depthAfter 1 ys = some depth := by
  constructor
  · intro h
    by_cases hmem : ('{', Region.code) ∈ cells
    · obtain ⟨xs, ys, rfl, hxs⟩ := List.eq_append_cons_of_mem hmem
      rw [blockDepth_append_left hxs, blockDepth, if_pos rfl] at h
      exact ⟨xs, ys, rfl, hxs, h⟩
    · have hleft := blockDepth_append_left hmem []
      rw [List.append_nil, h] at hleft
      cases hleft
  · rintro ⟨xs, ys, rfl, hxs, hys⟩
    rw [blockDepth_append_left hxs, blockDepth, if_pos rfl, hys]

/-- A text is balanced when its last character closes its first block. -/
theorem isBalanced_iff {text : List Char} :
    IsBalanced text ↔
      ∃ front, cellsFrom none .start text = front ++ [('}', .code)] ∧
        blockDepth front = some 1 := by
  have hbytes : byteLength text = cellBytes (cellsFrom none .start text) := by
    rw [cellBytes, map_fst_cellsFrom]
  constructor
  · rintro ⟨opening, hblock⟩
    obtain ⟨xs, ys, zs, hcells, hxs, hys, _, rfl, hend⟩ := balancedBlock_eq_some_iff.1 hblock
    have hcells' : cellsFrom none .start text = xs ++ ('{', .code) :: (ys ++ ('}', .code) :: zs) :=
      hcells
    rw [hbytes, hcells'] at hend
    simp only [cellBytes_append, cellBytes_cons, utf8Size_open, utf8Size_close] at hend
    -- Nothing follows the brace that closes the block.
    obtain rfl : zs = [] := by
      cases zs with
      | nil => rfl
      | cons z zs =>
        have := z.1.utf8Size_pos
        rw [cellBytes_cons] at hend
        omega
    refine ⟨xs ++ ('{', .code) :: ys, by rw [hcells']; simp,
      blockDepth_eq_some_iff.2 ⟨xs, ys, rfl, fun hmem => ?_, hys⟩⟩
    obtain ⟨us, vs, rfl⟩ := List.append_of_mem hmem
    exact absurd (hxs us vs rfl) (Nat.not_lt_zero _)
  · rintro ⟨front, hcells, hdepth⟩
    obtain ⟨xs, ys, rfl, hxs, hys⟩ := blockDepth_eq_some_iff.1 hdepth
    have hcells' : text.zip (classify text) = xs ++ ('{', .code) :: (ys ++ ('}', .code) :: []) := by
      rw [← List.cons_append, ← List.append_assoc]
      exact hcells
    refine ⟨cellBytes xs, balancedBlock_eq_some_iff.2
      ⟨xs, ys, [], hcells', ?_, hys, Nat.zero_le _, rfl, ?_⟩⟩
    · rintro us vs rfl
      exact absurd (List.mem_append_right us List.mem_cons_self) hxs
    · rw [hbytes, hcells]
      simp only [cellBytes_append, cellBytes_cons, cellBytes_nil, utf8Size_open, utf8Size_close]
      omega

/-- A balanced text ends with the closing brace. -/
theorem exists_eq_append_of_isBalanced {text : List Char} (h : IsBalanced text) :
    ∃ front, text = front ++ ['}'] := by
  obtain ⟨front, hcells, _⟩ := isBalanced_iff.1 h
  refine ⟨front.map Prod.fst, ?_⟩
  rw [← map_fst_cellsFrom none .start text, hcells, List.map_append]
  rfl

/-- A declaration whose block opens and closes its braces on balance is balanced. -/
theorem isBalanced_declarationText {kind : TargetKind} {name space inner : List Char}
    {cells : List Cell} {lineEnd : Bool} (hname : ∀ c ∈ name, Launcher.isTargetChar c = true)
    (hspace : IsSpace space) (hinner : Reads (.code false) inner cells (.code lineEnd))
    (hdepth : depthAfter 1 cells = some 1) :
    IsBalanced (declarationText kind name space inner) := by
  refine isBalanced_iff.2
    ⟨(headerCells kind name ++ cellsIn .code space) ++ ('{', .code) :: cells, ?_, ?_⟩
  · have hcells := (reads_declaration kind hname hspace hinner true).cells_eq none
    rw [ReadState.start, hcells, declarationCells, blockCells]
    simp
  · rw [blockDepth_append_left (open_not_mem_headerCells _ _ hspace), blockDepth, if_pos rfl,
      hdepth]

/-! ## Blanks at the end -/

/-- A literal is between quotes of either kind. -/
def ReadState.IsQuoted : ReadState → Prop
  | .literal quote _ => isQuote quote = true
  | _ => True

theorem ReadState.isQuoted_code (lineStart : Bool) : (ReadState.code lineStart).IsQuoted := trivial

theorem isQuoted_step {state : ReadState} (h : state.IsQuoted) (next : Option Char) (c : Char) :
    (state.step next c).2.IsQuoted := by
  cases state with
  | code lineStart =>
    rcases ReadState.step_code_cases lineStart next c with ⟨hstep, hc⟩ | hstep | ⟨hstep, _⟩ | hstep
    · rw [hstep]
      simpa [ReadState.IsQuoted, isQuote] using hc
    · rw [hstep]; trivial
    · rw [hstep]; trivial
    · rw [hstep]; trivial
  | literal quote escaped =>
    rcases ReadState.step_literal_cases quote escaped next c with ⟨_, hstep⟩ | hstep
    · rw [hstep]; exact h
    · rw [hstep]; trivial
  | comment =>
    rcases ReadState.step_comment_cases next c with ⟨hstep, _⟩ | hstep
    · rw [hstep]; trivial
    · rw [hstep]; trivial

theorem isQuoted_after {state : ReadState} (h : state.IsQuoted) (next : Option Char)
    (text : List Char) : (state.after next text).IsQuoted := by
  induction text generalizing state with
  | nil => exact h
  | cons c cs ih => exact ih (isQuoted_step h _ c)

/-- A blank neither opens nor closes a literal. -/
theorem isLiteral_step_blank {state : ReadState} (h : state.IsQuoted) {c : Char}
    (hc : isBlank c = true) (next : Option Char) :
    (state.step next c).2.isLiteral = state.isLiteral := by
  cases state with
  | code lineStart => rw [step_isCodeChar (isCodeChar_of_isBlank hc)]; rfl
  | literal quote escaped =>
    have hquote : c ≠ quote := by
      rintro rfl
      cases (isBlank_eq_false_of_isQuote h).symm.trans hc
    have hcaret : c ≠ '^' := by
      rintro rfl
      exact absurd hc (by decide)
    cases escaped <;> simp [ReadState.step, ReadState.isLiteral, hquote, hcaret]
  | comment =>
    rcases ReadState.step_comment_cases next c with ⟨hstep, _⟩ | hstep
    · rw [hstep]; rfl
    · rw [hstep]

theorem isLiteral_after_blanks {state : ReadState} (h : state.IsQuoted) {blanks : List Char}
    (hblanks : ∀ c ∈ blanks, isBlank c = true) (next : Option Char) :
    (state.after next blanks).isLiteral = state.isLiteral := by
  induction blanks generalizing state with
  | nil => rfl
  | cons c cs ih =>
    rw [ReadState.after, ih (isQuoted_step h _ c) fun d hd => hblanks d (List.mem_cons_of_mem c hd),
      isLiteral_step_blank h (hblanks c List.mem_cons_self)]

/-- A text without braces gives no braces. -/
theorem notBrace_of_mem_cellsFrom {text : List Char} (hopen : '{' ∉ text) (hclose : '}' ∉ text)
    {next : Option Char} {state : ReadState} {cell : Cell}
    (h : cell ∈ cellsFrom next state text) : notBrace cell := by
  have hmem : cell.1 ∈ text := map_fst_cellsFrom next state text ▸ List.mem_map_of_mem h
  exact fun _ => ⟨fun hc => hopen (hc ▸ hmem), fun hc => hclose (hc ▸ hmem)⟩

/-- Cutting the blanks at the end changes nothing about the block that is left open. -/
theorem leavesBlockOpen_trimEnd {front : List Char} :
    LeavesBlockOpen (trimEnd front) ↔ LeavesBlockOpen front := by
  have hsplit := trimEnd_append_rest front
  have hblanks : ∀ c ∈ (front.reverse.takeWhile isBlank).reverse, isBlank c = true := by
    intro c hc
    exact List.all_eq_true.1 List.all_takeWhile c (List.mem_reverse.1 hc)
  generalize (front.reverse.takeWhile isBlank).reverse = blanks at hsplit hblanks
  have hnext : blanks.head?.or none ≠ some '/' := by
    rw [Option.or_none]
    intro hhead
    exact absurd (hblanks '/' (List.mem_of_head? hhead)) (by decide)
  have hopen : '{' ∉ blanks := fun hmem => absurd (hblanks _ hmem) (by decide)
  have hclose : '}' ∉ blanks := fun hmem => absurd (hblanks _ hmem) (by decide)
  have hafter := ReadState.after_append none (.code false) (trimEnd front) blanks
  have hcells := cellsFrom_append none (.code false) (trimEnd front) blanks
  rw [hsplit, ReadState.after_of_ne_slash hnext] at hafter hcells
  rw [cellsFrom_of_ne_slash hnext] at hcells
  have hquoted : ((ReadState.code false).after none (trimEnd front)).IsQuoted :=
    isQuoted_after (ReadState.isQuoted_code false) none _
  have hbraces : ∀ cell ∈ cellsFrom none ((ReadState.code false).after none (trimEnd front)) blanks,
      notBrace cell := fun _ => notBrace_of_mem_cellsFrom hopen hclose
  constructor
  · rintro ⟨houtside, hdepth⟩
    constructor
    · rw [hafter, isLiteral_after_blanks hquoted hblanks, houtside]
    · rw [hcells, blockDepth_append_right _ hbraces, hdepth]
  · rintro ⟨houtside, hdepth⟩
    constructor
    · rwa [hafter, isLiteral_after_blanks hquoted hblanks] at houtside
    · rwa [hcells, blockDepth_append_right _ hbraces] at hdepth

end SoloBuild.Description

namespace SoloBuild.SingleFile

open Text Description

/-! ## The added fields -/

/-- The text of the added fields up to the literal of the input. -/
def beforeInput (indent : List Char) : List Char :=
  indent ++ '\n' :: (indent ++ "\n    .CompilerInputFiles = ".toList)

/-- The text of the added fields after the literal of the input. -/
def afterInput (indent : List Char) : List Char :=
  indent ++ ("\n    .AllowCaching = false".toList ++ (indent ++
    ("\n    .AllowDistribution = false".toList ++ (indent ++ ['\n']))))

theorem injectedFields_eq_input (indent : List Char) (input : Path) :
    injectedFields (indent ++ ['\n']) input =
      beforeInput indent ++ (quote input.text.toList ++ afterInput indent) := by
  simp [injectedFields, beforeInput, afterInput]

/-- The literal of the input begins in code. -/
theorem reads_beforeInput {state : ReadState} (hstate : state.isLiteral = false)
    {indent : List Char} (hindent : IsIndent indent) :
    ∃ cells, Reads state (beforeInput indent) cells (.code false) := by
  have hspaces : IsIndent "    ".toList := by decide
  have hname : ∀ c ∈ ".CompilerInputFiles = ".toList, isCodeChar c = true := by decide +kernel
  obtain ⟨_, _, hfirst, hs, _⟩ := reads_blanks hstate hindent
  obtain ⟨_, hblank, _⟩ := reads_newline hs hindent
  obtain ⟨_, hbefore, _⟩ := reads_newline ReadState.isLiteral_start hspaces
  exact ⟨_, hfirst.append (hblank.append (hbefore.append (reads_code hname true)))⟩

/-- The added fields bring in no braces outside literals. -/
theorem exists_cells_injectedFields {state : ReadState} (hstate : state.isLiteral = false)
    (body : List Char) (input : Path) :
    ∃ cells, Reads state (injectedFields (lineBreak body) input) cells .start ∧
      ∀ cell ∈ cells, notBrace cell := by
  obtain ⟨indent, hindent, hbreak⟩ := exists_lineBreak_eq body
  obtain ⟨cells, gap, hreads, _⟩ := reads_injectedFields hstate hindent input
  rw [hbreak]
  refine ⟨_, hreads, fun cell hcell => ?_⟩
  -- The input is the only part that may hold braces, and it stands in a literal.
  have hopen : '{' ∉ indent := fun hmem => absurd (hindent _ hmem) (by decide)
  have hclose : '}' ∉ indent := fun hmem => absurd (hindent _ hmem) (by decide)
  obtain ⟨_, hbefore⟩ := reads_beforeInput hstate hindent
  have hquote := (readsValue_quote input.text.toList).reads
  rw [← hreads.cells_eq none, injectedFields_eq_input, cellsFrom_append, hbefore.after_eq,
    cellsFrom_append, hquote.cells_eq, List.mem_append, List.mem_append] at hcell
  rcases hcell with hcell | hcell | hcell
  · exact notBrace_of_mem_cellsFrom (by simp [beforeInput, hopen]) (by simp [beforeInput, hclose])
      hcell
  · exact notBrace_of_mem_cellsIn (by decide) hcell
  · exact notBrace_of_mem_cellsFrom (by simp [afterInput, hopen]) (by simp [afterInput, hclose])
      hcell

/-- Inside a literal the added fields stay there, unless the input closes it. -/
theorem isLiteral_after_injectedFields {state : ReadState} (hstate : state.isLiteral = true)
    (hquoted : state.IsQuoted) (body : List Char) :
    (state.after none (injectedFields (lineBreak body) ⟨""⟩)).isLiteral = true := by
  cases state with
  | code lineStart => cases hstate
  | comment => cases hstate
  | literal quote escaped =>
    -- The quotes of the empty input close a literal of their kind and open another.
    have hquote : quote = '\'' ∨ quote = '"' := by
      simpa [ReadState.IsQuoted, isQuote] using hquoted
    rcases hquote with rfl | rfl <;> rcases lineBreak_cases body with h | h <;>
      rw [h] <;> cases escaped <;> decide +kernel

theorem exists_injectedFields_eq (body : List Char) (input : Path) :
    ∃ fields, injectedFields (lineBreak body) input = fields ++ ['\n'] := by
  obtain ⟨indent, _, hbreak⟩ := exists_lineBreak_eq body
  rw [hbreak]
  exact ⟨_, (List.append_assoc _ indent ['\n']).symm⟩

theorem head?_injectedFields_ne_slash (body : List Char) (input : Path) :
    (injectedFields (lineBreak body) input).head?.or none ≠ some '/' := by
  rcases lineBreak_cases body with h | h
  · rw [h]; simp [injectedFields]
  · rw [h]; simp [injectedFields]

/-! ## The target -/

/-- A block behind the header of a target is closed by the last character exactly when this
    character is read in code and closes one open brace. -/
theorem isBalanced_headerText_iff (inner : List Char) :
    IsBalanced (headerText {} ++ (inner ++ ['}'])) ↔
      (((ReadState.code false).after none inner).step none '}').1 = .code ∧
        blockDepth (cellsFrom none (.code false) inner) = some 1 := by
  have hopen := open_not_mem_headerCells .objectList "CompileSingleFile".toList IsSpace.nil
  rw [cellsIn_nil, List.append_nil] at hopen
  have hbrace : (['}'].head?.or none : Option Char) ≠ some '/' := by decide
  have hread : Reads .start _ _ _ := reads_header .objectList isTargetChar_targetName true
  rw [isBalanced_iff, headerText_eq, cellsFrom_append]
  generalize headerCells .objectList "CompileSingleFile".toList = header at hopen hread
  rw [hread.cells_eq, hread.after_eq, cellsFrom_append, cellsFrom_of_ne_slash hbrace,
    ReadState.after_of_ne_slash hbrace, cellsFrom_cons, cellsFrom_nil, ← List.append_assoc]
  constructor
  · rintro ⟨front, hcells, hdepth⟩
    obtain ⟨rfl, hlast⟩ := List.append_inj' hcells rfl
    rw [blockDepth_append_left hopen] at hdepth
    exact ⟨(Prod.mk.inj (List.cons.inj hlast).1).2, hdepth⟩
  · rintro ⟨hcode, hdepth⟩
    refine ⟨_, ?_, (blockDepth_append_left hopen _).trans hdepth⟩
    rw [← hcode]
    rfl

/-- With fields added at its end the block is closed as it was without them. -/
theorem isBalanced_headerText_injectedFields_iff (front body : List Char) :
    (∀ input, IsBalanced (headerText {} ++
      (front ++ injectedFields (lineBreak body) input ++ ['}']))) ↔ LeavesBlockOpen front := by
  have hpieces : ∀ input,
      (ReadState.code false).after none (front ++ injectedFields (lineBreak body) input) =
        ((ReadState.code false).after none front).after none
          (injectedFields (lineBreak body) input) ∧
      cellsFrom none (.code false) (front ++ injectedFields (lineBreak body) input) =
        cellsFrom none (.code false) front ++
          cellsFrom none ((ReadState.code false).after none front)
            (injectedFields (lineBreak body) input) := by
    intro input
    have hhead := head?_injectedFields_ne_slash body input
    rw [ReadState.after_append, cellsFrom_append, ReadState.after_of_ne_slash hhead,
      cellsFrom_of_ne_slash hhead]
    exact ⟨rfl, rfl⟩
  have hquoted : ((ReadState.code false).after none front).IsQuoted :=
    isQuoted_after (ReadState.isQuoted_code false) none front
  simp only [isBalanced_headerText_iff, hpieces]
  generalize hstate : (ReadState.code false).after none front = state at hquoted
  cases hliteral : state.isLiteral with
  | true =>
    -- The last brace is read inside the literal.
    constructor
    · intro h
      have hcode := (h ⟨""⟩).1
      have hafter := isLiteral_after_injectedFields hliteral hquoted body
      rw [ReadState.step_of_isLiteral hafter] at hcode
      cases hcode
    · rintro ⟨houtside, _⟩
      rw [hstate, hliteral] at houtside
      cases houtside
  | false =>
    constructor
    · intro h
      obtain ⟨cells, hreads, hcells⟩ := exists_cells_injectedFields hliteral body ⟨""⟩
      have hdepth := (h ⟨""⟩).2
      rw [hreads.cells_eq, blockDepth_append_right _ hcells] at hdepth
      exact ⟨by rw [hstate, hliteral], hdepth⟩
    · rintro ⟨_, hdepth⟩ input
      obtain ⟨cells, hreads, hcells⟩ := exists_cells_injectedFields hliteral body input
      rw [hreads.after_eq, hreads.cells_eq, blockDepth_append_right _ hcells]
      exact ⟨rfl, hdepth⟩

/-- The target is balanced for every input exactly when the lines that are kept end with the
    closing brace and, before it, leave one block open outside literals. -/
theorem isBalanced_targetText_iff (node : TargetNode) :
    (∀ input, IsBalanced (targetText node input {})) ↔
      ∃ front, joinLines (keptLines {} node.bodyLines) = front ++ ['}'] ∧
        LeavesBlockOpen front := by
  constructor
  · intro h
    obtain ⟨last, hlast⟩ := exists_eq_append_of_isBalanced (h ⟨""⟩)
    rw [targetText, insertFields] at hlast
    cases hsplit : splitAtLast '}' (joinLines (keptLines {} node.bodyLines)) with
    | none =>
      -- The added fields come last, and they end with their line break.
      obtain ⟨fields, hfields⟩ := exists_injectedFields_eq node.body ⟨""⟩
      rw [hsplit, hfields] at hlast
      simp only [← List.append_assoc] at hlast
      exact absurd (List.append_inj' hlast rfl).2 (by decide)
    | some pieces =>
      -- What follows the last brace would be the end of the target.
      obtain ⟨front, back⟩ := pieces
      obtain ⟨hbody, rest, rfl, hrest⟩ := splitAtLast_eq_some hsplit
      rw [hsplit] at hlast
      obtain rfl : rest = [] := by
        rcases List.eq_nil_or_concat rest with rfl | ⟨init, c, rfl⟩
        · rfl
        · rw [List.concat_eq_append] at hlast hrest
          simp only [← List.cons_append, ← List.append_assoc] at hlast
          obtain ⟨_, hc⟩ := List.append_inj' hlast rfl
          rw [hc] at hrest
          exact absurd (List.mem_append_right init List.mem_cons_self) hrest
      refine ⟨front, hbody, leavesBlockOpen_trimEnd.1
        ((isBalanced_headerText_injectedFields_iff _ node.body).1 fun input => ?_)⟩
      have hinput := h input
      rwa [targetText, hbody, insertFields_append _ _ List.not_mem_nil] at hinput
  · rintro ⟨front, hbody, hfront⟩ input
    rw [targetText, hbody, insertFields_append _ _ List.not_mem_nil]
    exact (isBalanced_headerText_injectedFields_iff _ node.body).2
      (leavesBlockOpen_trimEnd.2 hfront) input

/-- A plain declaration has no fields on the lines of its braces, and its target is balanced. -/
theorem isBalanced_targetText_of_plain {node : TargetNode} {block : PlainBlock}
    (hbody : node.body = block.text) (input : Path) : IsBalanced (targetText node input {}) := by
  obtain ⟨blanks, indent, lines, hblanks, hindent, hplain, _, htarget⟩ :=
    exists_targetText_eq hbody input
  obtain ⟨cells, gap, hreads, hcells, hgap, _⟩ := reads_targetBlock hblanks hplain hindent input
  rw [htarget]
  exact isBalanced_declarationText isTargetChar_targetName (isSpace_block block) hreads
    (hcells.append (FieldCells.of_gap hgap)).depth

/-- A library whose first field stands behind its opening brace. -/
def fieldBehindBrace : TargetNode where
  name := "X"
  kind := .library
  start := 0
  stop := 57
  headerLength := 14
  text := "Library( 'X' ) \x7b .CompilerInputUnity = 'U'\n    .A = 'b'\n\x7d"

/-- The opening brace is dropped with the field behind it. -/
theorem not_isBalanced_targetText :
    Document.locate ⟨⟨"a.bff"⟩, fieldBehindBrace.text⟩ "X" TargetKind.all = .ok fieldBehindBrace ∧
      ¬ IsBalanced (targetText fieldBehindBrace ⟨"a.cpp"⟩ {}) := by
  refine ⟨by decide +kernel, ?_⟩
  rintro ⟨opening, hblock⟩
  have hnone : balancedBlock ((targetText fieldBehindBrace ⟨"a.cpp"⟩ {}).zip
      (classify (targetText fieldBehindBrace ⟨"a.cpp"⟩ {}))) 0 = none := by decide +kernel
  rw [hnone] at hblock
  cases hblock

end SoloBuild.SingleFile
