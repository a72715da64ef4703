import SoloBuild.Proofs.FieldPieces
import SoloBuild.Proofs.LocateCorrect

/-!
# Reading a whole declaration

A declaration is a header, something that separates, and a block. A text that is such a
declaration, and whose block holds no parenthesis in code, declares nothing else: it is located in
itself, from its first to its last character. The other way round, a declaration located in any
document has the header that it begins with.

## Key results

- `reads_declaration`: the cells of a declaration, by those of its block
- `declarationsFrom_eq_nil`: without a parenthesis in code nothing is declared
- `locate_declaration`, `fields?_declaration`: a declaration is located in itself, with its fields
- `headerLength_of_locate`: the header of a located declaration
-/

namespace SoloBuild.Description

open Text

/-- The header of a declaration, as it is usually written. -/
def declarationHeader (kind : TargetKind) (name : List Char) : List Char :=
  kind.keyword.toList ++ (['(', ' '] ++ (literalText name ++ [' ', ')']))

/-- The cells of a header. -/
def headerCells (kind : TargetKind) (name : List Char) : List Cell :=
  cellsIn .code kind.keyword.toList ++ (cellsIn .code ['(', ' '] ++
    (cellsIn .literal (literalText name) ++ cellsIn .code [' ', ')']))

/-- Blanks and line breaks, as they stand between the header and the block. -/
def IsSpace (text : List Char) : Prop :=
  ∀ c ∈ text, ReadState.isIndent c = true ∨ c = '\n'

theorem IsSpace.nil : IsSpace [] := by simp [IsSpace]

/-- The text of a declaration: its header, what separates, and its block. -/
def declarationText (kind : TargetKind) (name space inner : List Char) : List Char :=
  declarationHeader kind name ++ (space ++ '{' :: (inner ++ ['}']))

/-- The cells of a declaration, by those of its block. -/
def declarationCells (kind : TargetKind) (name space : List Char) (inner : List Cell) : List Cell :=
  (headerCells kind name ++ cellsIn .code space) ++ blockCells inner

/-! ## Reading -/

theorem isCodeChar_of_isSpace {c : Char} (h : ReadState.isIndent c = true ∨ c = '\n') :
    isCodeChar c = true := by
  rcases h with h | rfl
  · exact isCodeChar_of_isBlank (isBlank_of_isIndent h)
  · decide

/-- A name stands for itself between quotes. -/
theorem isPlainContent_of_isTargetChar {name : List Char}
    (h : ∀ c ∈ name, Launcher.isTargetChar c = true) : IsPlainContent name := by
  intro c hc
  constructor
  · rintro rfl; exact absurd (h _ hc) (by decide)
  · rintro rfl; exact absurd (h _ hc) (by decide)

theorem reads_header (kind : TargetKind) {name : List Char}
    (hname : ∀ c ∈ name, Launcher.isTargetChar c = true) (lineStart : Bool) :
    Reads (.code lineStart) (declarationHeader kind name) (headerCells kind name)
      (.code false) := by
  obtain ⟨letters, hkey, _, hword⟩ := kind.keyword_eq_cons
  have hcode : ∀ c ∈ kind.keyword.toList, isCodeChar c = true := fun c hc =>
    isCodeChar_of_isWord (hword c hc)
  have hliteral := reads_literal (.inl rfl)
    (readsAs_literal (isPlainContent_of_isTargetChar hname))
    (lineStartAfter (lineStartAfter lineStart kind.keyword.toList) ['(', ' '])
  exact (reads_code hcode lineStart).append ((reads_code (by decide) _).append
    (hliteral.append (reads_code (by decide) false)))

/-- The cells of a declaration, by those of its block. -/
theorem reads_declaration (kind : TargetKind) {name space inner : List Char} {cells : List Cell}
    {lineEnd : Bool} (hname : ∀ c ∈ name, Launcher.isTargetChar c = true) (hspace : IsSpace space)
    (hinner : Reads (.code false) inner cells (.code lineEnd)) (lineStart : Bool) :
    Reads (.code lineStart) (declarationText kind name space inner)
      (declarationCells kind name space cells) (.code false) := by
  have hopen : ∀ b, Reads (.code b) ['{'] [('{', .code)] (.code false) := by
    intro b
    cases b <;> exact reads_code (by decide) _
  have hclose : Reads (.code lineEnd) ['}'] [('}', .code)] (.code false) := by
    cases lineEnd <;> exact reads_code (by decide) _
  have hreads := ((reads_header kind hname lineStart).append
    (reads_code (fun c hc => isCodeChar_of_isSpace (hspace c hc)) false)).append
      ((hopen _).append (hinner.append hclose))
  rw [List.append_assoc] at hreads
  exact hreads

/-! ## Nothing else is declared -/

/-- A cell in code splits its text where the reading stands in code. -/
theorem exists_code_of_cellsFrom {next : Option Char} {state : ReadState} {text : List Char}
    {us vs : List Cell} {c : Char} (h : cellsFrom next state text = us ++ (c, .code) :: vs) :
    ∃ lineStart, text = us.map Prod.fst ++ c :: vs.map Prod.fst ∧
      cellsFrom next (.code lineStart) (c :: vs.map Prod.fst) = (c, .code) :: vs ∧
      state.after (some c) (us.map Prod.fst) = .code lineStart := by
  have htext : text = us.map Prod.fst ++ c :: vs.map Prod.fst := by
    rw [← map_fst_cellsFrom next state text, h, List.map_append, List.map_cons]
  have hsplit := cellsFrom_append next state (us.map Prod.fst) (c :: vs.map Prod.fst)
  rw [← htext, h, List.head?_cons, Option.some_or] at hsplit
  have hlength := congrArg List.length (map_fst_cellsFrom (some c) state (us.map Prod.fst))
  rw [List.length_map, List.length_map] at hlength
  have htail := (List.append_inj hsplit hlength.symm).2
  have hcell := htail
  rw [cellsFrom_cons] at hcell
  have hregion := (Prod.mk.inj (List.cons.inj hcell).1).2
  obtain ⟨lineStart, hstate⟩ := ReadState.exists_code_of_step hregion.symm
  rw [hstate] at htail
  exact ⟨lineStart, htext, htail.symm, hstate⟩

/-- The cells of a header whose keyword is in code: the first parenthesis is its own. -/
theorem IsHeader.exists_cells {kind : TargetKind} {name matched : List Char}
    (h : IsHeader kind.keyword.toList name matched) (next : Option Char) (lineStart : Bool)
    (rest : List Char) :
    ∃ opening named more,
      cellsFrom next (.code lineStart) (matched ++ rest) =
        opening ++ ('(', .code) :: (named ++ more) ∧
      matched = opening.map Prod.fst ++ '(' :: named.map Prod.fst ∧ more.map Prod.fst = rest ∧
      ('(', Region.code) ∉ opening := by
  obtain ⟨ws, ws', q, q', hws, hws', hq, hq', rfl⟩ := h.exists_eq
  obtain ⟨letters, _, _, hword⟩ := kind.keyword_eq_cons
  have hnot : '(' ∉ kind.keyword.toList ++ ws := by
    rw [List.mem_append]
    rintro (hmem | hmem)
    · exact absurd (hword _ hmem) (by decide)
    · exact absurd (hws _ hmem) (by decide)
  -- From the keyword to the parenthesis a header is plain code.
  have hplain : ∀ d ∈ (kind.keyword.toList ++ ws) ++ ['('], isCodeChar d = true := by
    simp only [List.mem_append, List.mem_singleton]
    rintro d ((hd | hd) | rfl)
    · exact isCodeChar_of_isWord (hword d hd)
    · exact isCodeChar_of_isBlank (hws d hd)
    · decide
  have hopening : cellsIn .code ((kind.keyword.toList ++ ws) ++ ['(']) =
      cellsIn .code (kind.keyword.toList ++ ws) ++ [('(', Region.code)] := by
    simp [cellsIn]
  have hsplit : (kind.keyword.toList ++ (ws ++ '(' :: (ws' ++ q :: (name ++ [q'])))) ++ rest =
      ((kind.keyword.toList ++ ws) ++ ['(']) ++ ((ws' ++ q :: (name ++ [q'])) ++ rest) := by
    simp
  have hread := cellsFrom_append next (.code lineStart) ((kind.keyword.toList ++ ws) ++ ['('])
    ((ws' ++ q :: (name ++ [q'])) ++ rest)
  obtain ⟨named, more, hcells, hnamed, hmore⟩ := exists_cells_of_append next
    (ReadState.after (((ws' ++ q :: (name ++ [q'])) ++ rest).head?.or next) (.code lineStart)
      ((kind.keyword.toList ++ ws) ++ ['('])) (rfl : (ws' ++ q :: (name ++ [q'])) ++ rest = _)
  rw [(reads_code hplain lineStart).cells_eq, hcells, hopening] at hread
  refine ⟨cellsIn .code (kind.keyword.toList ++ ws), named, more, ?_, ?_, hmore, ?_⟩
  · rw [hsplit, hread]
    simp
  · rw [hnamed]
    simp
  · exact fun hmem => hnot (mem_cellsIn.1 hmem).1

/-- Without a parenthesis in code nothing is declared: the parenthesis of a header is in code when
    its keyword is. -/
theorem declarationsFrom_eq_nil {next : Option Char} {state : ReadState} {text : List Char}
    (h : ('(', Region.code) ∉ cellsFrom next state text) (kind : TargetKind) (name : List Char)
    (before : Option Char) (offset : Nat) :
    declarationsFrom kind name before offset (cellsFrom next state text) = [] := by
  rw [List.eq_nil_iff_forall_not_mem]
  intro header hheader
  obtain ⟨us, c, vs, hcells, _, n, hn, _⟩ := mem_declarationsFrom_iff.1 hheader
  obtain ⟨lineStart, _, hcode, _⟩ := exists_code_of_cellsFrom hcells
  obtain ⟨_, rest, hheader, heq, _⟩ := headerBytes?_eq_some_iff.1 hn
  obtain ⟨opening, named, more, hread, -, -, -⟩ := hheader.exists_cells next lineStart rest
  rw [heq, hread] at hcode
  have hparen : ('(', Region.code) ∈ (c, Region.code) :: vs := by
    rw [← hcode]
    exact List.mem_append_right opening List.mem_cons_self
  exact h (hcells ▸ List.mem_append_right us hparen)

/-! ## A declaration in its own text -/

/-- The header up to the quote after the name. -/
def headerFront (kind : TargetKind) (name : List Char) : List Char :=
  kind.keyword.toList ++ (['(', ' '] ++ literalText name)

theorem isHeader_headerFront (kind : TargetKind) (name : List Char) :
    IsHeader kind.keyword.toList name (headerFront kind name) :=
  @IsHeader.intro _ _ [] [' '] '\'' '\'' (by simp) (by decide) rfl rfl

theorem declarationHeader_eq (kind : TargetKind) (name : List Char) :
    declarationHeader kind name = headerFront kind name ++ [' ', ')'] := by
  simp [declarationHeader, headerFront]

/-- What stands before the block of a declaration opens no block. -/
theorem open_not_mem_headerCells (kind : TargetKind) (name : List Char) {space : List Char}
    (hspace : IsSpace space) :
    ('{', Region.code) ∉ headerCells kind name ++ cellsIn .code space := by
  have hkey : '{' ∉ kind.keyword.toList := by cases kind <;> decide
  have hspace' : '{' ∉ space := fun hmem => absurd (hspace _ hmem) (by decide)
  simp [headerCells, mem_cellsIn, hkey, hspace']

section Declaration

variable {kind : TargetKind} {name space inner : List Char} {cells : List Cell} {lineEnd : Bool}

/-- A declaration declares itself, and nothing else when its block holds no parenthesis in code. -/
theorem headers_declaration (hname : ∀ c ∈ name, Launcher.isTargetChar c = true)
    (hspace : IsSpace space) (hinner : Reads (.code false) inner cells (.code lineEnd))
    (hparen : ('(', Region.code) ∉ cells) :
    headers (declarationText kind name space inner) name [kind] =
      [⟨kind, 0, byteLength (headerFront kind name)⟩] := by
  obtain ⟨letters, hkey, hletters, hword⟩ := kind.keyword_eq_cons
  have hinitial : isWord kind.initial = true := hword _ (hkey ▸ List.mem_cons_self)
  have hcells := (reads_declaration kind hname hspace hinner true).cells_eq none
  -- The block, with the brace that closes it, is passed over because it holds no parenthesis.
  have hclose : Reads (.code lineEnd) ['}'] [('}', .code)] (.code false) := by
    cases lineEnd <;> exact reads_code (by decide) _
  have hblock := (hinner.append hclose).cells_eq none
  have hnone : ∀ before offset,
      declarationsFrom kind name before offset (cells ++ [('}', .code)]) = [] := by
    rw [← hblock]
    exact declarationsFrom_eq_nil (by simp [hblock, hparen]) kind name
  -- What is left of the header is passed over because the keyword does not begin again.
  have hspace' : kind.initial ∉ space := fun hmem => by
    have hblank := hspace _ hmem
    cases kind <;> exact absurd hblank (by decide)
  have hrest : (kind.initial, Region.code) ∉ cellsIn .code letters ++ (cellsIn .code ['(', ' '] ++
      (cellsIn .literal (literalText name) ++ (cellsIn .code [' ', ')'] ++
        (cellsIn .code space ++ [('{', .code)])))) := by
    have hmarks : kind.initial ∉ ['(', ' '] ∧ kind.initial ∉ [' ', ')'] ∧ kind.initial ≠ '{' := by
      cases kind <;> decide
    simp only [List.mem_append, mem_cellsIn, List.mem_singleton, Prod.mk.injEq, not_or]
    exact ⟨fun h => hletters h.1, fun h => hmarks.1 h.1, by simp, fun h => hmarks.2.1 h.1,
      fun h => hspace' h.1, fun h => hmarks.2.2 h.1⟩
  have hsplit : declarationCells kind name space cells =
      (kind.initial, .code) :: ((cellsIn .code letters ++ (cellsIn .code ['(', ' '] ++
        (cellsIn .literal (literalText name) ++ (cellsIn .code [' ', ')'] ++
          (cellsIn .code space ++ [('{', .code)]))))) ++ (cells ++ [('}', .code)])) := by
    simp [declarationCells, blockCells, headerCells, hkey]
  have htext := map_fst_cellsFrom none .start (declarationText kind name space inner)
  have hfound : headerBytes? kind.keyword.toList name (declarationText kind name space inner) =
      some (byteLength (headerFront kind name)) := by
    refine headerBytes?_eq_some_iff.2 ⟨_, [' ', ')'] ++ (space ++ '{' :: (inner ++ ['}'])),
      isHeader_headerFront kind name, ?_, rfl⟩
    rw [declarationText, declarationHeader_eq, List.append_assoc]
  rw [headers_eq_declarationsFrom hname, List.flatMap_singleton]
  rw [ReadState.start, hcells, hsplit, List.map_cons] at htext
  rw [ReadState.start, hcells, hsplit, declarationsFrom, declarationsFrom_of_ne_initial hrest,
    hnone, List.append_nil, declarationAt?, htext, hfound]
  simp [isWordBoundary, hinitial]

/-- A declaration is located in itself, from its first to its last character. -/
theorem locate_declaration (kind : TargetKind) (hname : ∀ c ∈ name, Launcher.isTargetChar c = true)
    (hspace : IsSpace space) (hinner : Reads (.code false) inner cells (.code lineEnd))
    (hdepth : depthAfter 1 cells = some 1) (hparen : ('(', Region.code) ∉ cells) (path : Path) :
    Document.locate ⟨path, String.ofList (declarationText kind name space inner)⟩
        (String.ofList name) [kind] =
      .ok { name := String.ofList name, kind
            start := 0
            stop := byteLength (declarationText kind name space inner)
            headerLength := byteLength (declarationHeader kind name)
            text := String.ofList (declarationText kind name space inner) } := by
  have hcells := (reads_declaration kind hname hspace hinner true).cells_eq none
  have hpieces : declarationText kind name space inner = [] ++ (headerFront kind name ++
      (([' ', ')'] ++ space) ++ '{' :: (inner ++ '}' :: []))) := by
    rw [declarationText, declarationHeader_eq]
    simp
  have hinnerText : byteLength inner = cellBytes cells := by
    rw [← hinner.cells_eq none, cellBytes, map_fst_cellsFrom]
  have hfront : cellBytes (headerCells kind name ++ cellsIn .code space) =
      byteLength (headerFront kind name) + byteLength ([' ', ')'] ++ space) := by
    have hheader := (reads_header kind hname true).cells_eq none
    rw [cellBytes_append, ← hheader, cellBytes, cellBytes, map_fst_cellsFrom, map_fst_cellsIn,
      declarationHeader_eq]
    simp only [byteLength_append]
    omega
  have hblock : balancedBlock ((declarationText kind name space inner).zip
      (classify (declarationText kind name space inner)))
      (byteLength [] + byteLength (headerFront kind name)) =
      some (byteLength [] + byteLength (headerFront kind name) + byteLength ([' ', ')'] ++ space),
        byteLength [] + byteLength (headerFront kind name) + byteLength ([' ', ')'] ++ space) + 1 +
          byteLength inner) := by
    refine balancedBlock_eq_some_iff.2 ⟨_, cells, [], hcells, ?_, hdepth, ?_, ?_, ?_⟩
    · intro us vs hus
      exact absurd (hus ▸ List.mem_append_right us List.mem_cons_self)
        (open_not_mem_headerCells _ _ hspace)
    · omega
    · rw [hfront, byteLength_nil, Nat.zero_add]
    · rw [hinnerText]
  have hgap : headerGap ([' ', ')'] ++ space) = 2 := by
    simp [headerGap, upTo?]
    decide
  have hnode := nodeAt?_pieces hpieces (String.ofList name) kind hblock
  have hbytes : byteLength (headerFront kind name) + byteLength ([' ', ')'] ++ space) + 1 +
      byteLength inner + 1 = byteLength (declarationText kind name space inner) := by
    rw [hpieces]
    simp only [byteLength_append, byteLength_cons, byteLength_nil, utf8Size_open, utf8Size_close]
    omega
  have hheader : byteLength (headerFront kind name) + 2 =
      byteLength (declarationHeader kind name) := by
    rw [declarationHeader_eq, byteLength_append]
    rfl
  have htext : headerFront kind name ++ (([' ', ')'] ++ space) ++ '{' :: (inner ++ ['}'])) =
      declarationText kind name space inner := by
    rw [hpieces, List.nil_append]
  simp only [byteLength_nil, Nat.zero_add, hgap, hbytes, hheader, htext] at hnode
  rw [Document.locate]
  simp only [String.toList_ofList, headers_declaration hname hspace hinner hparen, hnode]

/-- The fields of a declaration are those of its block. -/
theorem fields?_declaration (hname : ∀ c ∈ name, Launcher.isTargetChar c = true)
    (hspace : IsSpace space) (hinner : Reads (.code false) inner cells (.code lineEnd)) :
    fields? (declarationText kind name space inner) = readFields (cells ++ [('}', .code)]) := by
  have hcells := (reads_declaration kind hname hspace hinner true).cells_eq none
  have hfront : ∀ cell ∈ headerCells kind name ++ cellsIn .code space,
      (cell != ('{', Region.code)) = true := by
    rintro cell hcell
    rw [bne_iff_ne]
    rintro rfl
    exact open_not_mem_headerCells _ _ hspace hcell
  rw [fields?, ReadState.start, hcells, declarationCells, List.dropWhile_append_of_pos hfront]
  simp [blockCells]

end Declaration

/-! ## The header of a located declaration -/

/-- A text that holds one character of a kind is cut at such a character in one way only. -/
private theorem append_cons_inj_of_once {p : Char → Bool} {xs ys zs ws : List Char} {a b : Char}
    (h : xs ++ a :: ys = zs ++ b :: ws) (ha : p a = true) (hzs : ∀ z ∈ zs, p z = false)
    (hws : ∀ w ∈ ws, p w = false) : xs = zs ∧ a = b ∧ ys = ws := by
  rcases List.append_eq_append_iff.1 h with ⟨us, rfl, hus⟩ | ⟨us, rfl, hus⟩
  · cases us with
    | nil => simpa using hus
    | cons u us =>
      rw [List.cons_append, List.cons.injEq] at hus
      have hfalse := hzs u (List.mem_append_right xs List.mem_cons_self)
      rw [← hus.1, ha] at hfalse
      cases hfalse
  · cases us with
    | nil => simpa [eq_comm] using hus
    | cons u us =>
      rw [List.cons_append, List.cons.injEq] at hus
      have hfalse := hws a (hus.2 ▸ List.mem_append_right us List.mem_cons_self)
      rw [ha] at hfalse
      cases hfalse

/-- A header that a declaration begins with, and that ends before its block, is the front of the
    declaration's own header. -/
theorem headerFront_of_isHeader {kind kind' : TargetKind}
    {declared name header gap space : List Char}
    (hdeclared : ∀ c ∈ declared, Launcher.isTargetChar c = true) (hspace : IsSpace space)
    (h : IsHeader kind'.keyword.toList name header)
    (heq : header ++ gap = declarationHeader kind declared ++ space) :
    header = headerFront kind declared ∧ gap = [' ', ')'] ++ space := by
  have hkey : ∀ kind : TargetKind, ∀ c ∈ kind.keyword.toList, isQuote c = false := by
    intro kind
    cases kind <;> decide
  have hblank : ∀ c, isBlank c = true → isQuote c = false := by
    intro c hc
    cases hquote : isQuote c with
    | false => rfl
    | true => rw [isBlank_eq_false_of_isQuote hquote] at hc; cases hc
  obtain ⟨ws, ws', q, q', hws, hws', hq, hq', rfl⟩ := h.exists_eq
  have hfirst : (kind'.keyword.toList ++ (ws ++ '(' :: ws')) ++ q :: (name ++ q' :: gap) =
      (kind.keyword.toList ++ ['(', ' ']) ++ '\'' ::
        (declared ++ '\'' :: ([' ', ')'] ++ space)) := by
    simpa [declarationHeader, literalText] using heq
  have hmarks : ∀ c ∈ ['(', ' '], isQuote c = false := by decide
  have hclosing : ∀ c ∈ [' ', ')'] ++ space, isQuote c = false := by
    simp only [List.mem_append]
    rintro c (hc | hc)
    · have : ∀ c ∈ [' ', ')'], isQuote c = false := by decide
      exact this c hc
    · rcases hspace c hc with hindent | rfl
      · exact hblank c (isBlank_of_isIndent hindent)
      · decide
  have hname : ∀ c ∈ declared, isQuote c = false := by
    intro c hc
    have hplain := isPlainContent_of_isTargetChar hdeclared c hc
    simp only [isQuote, Bool.or_eq_false_iff, beq_eq_false_iff_ne]
    refine ⟨hplain.1, ?_⟩
    rintro rfl
    exact absurd (hdeclared _ hc) (by decide)
  -- The first quote of both is the one before the name, and there is but one more.
  obtain ⟨hfront, rfl, hrest⟩ := append_cons_inj hfirst
    (by
      simp only [List.mem_append, List.mem_cons]
      rintro c (hc | hc | rfl | hc)
      · exact hkey kind' c hc
      · exact hblank c (hws c hc)
      · decide
      · exact hblank c (hws' c hc))
    (by
      simp only [List.mem_append]
      rintro c (hc | hc)
      · exact hkey kind c hc
      · exact hmarks c hc) hq rfl
  obtain ⟨rfl, rfl, rfl⟩ := append_cons_inj_of_once hrest hq' hname hclosing
  refine ⟨?_, rfl⟩
  calc kind'.keyword.toList ++ (ws ++ '(' :: (ws' ++ '\'' :: (name ++ ['\''])))
      = (kind'.keyword.toList ++ (ws ++ '(' :: ws')) ++ literalText name := by simp [literalText]
    _ = headerFront kind name := by rw [hfront, headerFront, List.append_assoc]

/-- The node of a header in code, by the cells from there on: its text is what the block ends, and
    its header ends before the block. -/
theorem exists_cells_of_nodeAt? {text : List Char} {name : String} {kind : TargetKind}
    {node : TargetNode} {us vs : List Cell} {n : Nat}
    (hcells : cellsFrom none .start text = us ++ vs)
    (hnode : nodeAt? text name ⟨kind, cellBytes us, cellBytes us + n⟩ = some node) :
    ∃ xs ys zs, vs = (xs ++ blockCells ys) ++ zs ∧ depthAfter 1 ys = some 1 ∧ n ≤ cellBytes xs ∧
      node.text.toList = (xs ++ blockCells ys).map Prod.fst ∧
      node.headerLength = headerEnd (vs.map Prod.fst) n (cellBytes xs) := by
  have htext : text = us.map Prod.fst ++ vs.map Prod.fst := by
    rw [← map_fst_cellsFrom none .start text, hcells, List.map_append]
  obtain ⟨⟨opening, closing⟩, hblock, rfl⟩ := Option.map_eq_some_iff.1 hnode
  have hzip : text.zip (classify text) = us ++ vs := hcells
  rw [hzip, balancedBlock_append, Option.map_eq_some_iff] at hblock
  obtain ⟨⟨o, c⟩, hblock, heq⟩ := hblock
  obtain ⟨rfl, rfl⟩ := Prod.mk.inj heq
  obtain ⟨xs, ys, zs, hvs, _, hdepth, hle, rfl, rfl⟩ := balancedBlock_eq_some_iff.1 hblock
  have hpieces : vs = (xs ++ blockCells ys) ++ zs := by
    rw [hvs]; simp [blockCells]
  refine ⟨xs, ys, zs, hpieces, hdepth, hle, ?_, ?_⟩
  · have hbytes : cellBytes xs + 1 + cellBytes ys + 1 = cellBytes (xs ++ blockCells ys) := by
      simp only [blockCells, cellBytes_append, cellBytes_cons, cellBytes_nil, utf8Size_open,
        utf8Size_close]
      omega
    have hslice := sliceBytes_pieces (us.map Prod.fst) ((xs ++ blockCells ys).map Prod.fst)
      (zs.map Prod.fst)
    rw [← List.map_append, ← hpieces, ← htext] at hslice
    simp only [String.toList_ofList]
    rw [Nat.add_assoc, hbytes]
    exact hslice
  · have hend := headerEnd_append (us.map Prod.fst) (vs.map Prod.fst) n (cellBytes xs)
    rw [← htext] at hend
    simp only [cellBytes] at hend ⊢
    rw [hend, Nat.add_sub_cancel_left]

/-- A located node whose text is a declaration has the header of that declaration. -/
theorem headerLength_of_locate {document : Document} {name : String} {kinds : List TargetKind}
    {node : TargetNode} {kind : TargetKind} {declared space inner : List Char} {cells : List Cell}
    {lineEnd : Bool} (hlocate : document.locate name kinds = .ok node)
    (htext : node.text.toList = declarationText kind declared space inner)
    (hdeclared : ∀ c ∈ declared, Launcher.isTargetChar c = true) (hspace : IsSpace space)
    (hinner : Reads (.code false) inner cells (.code lineEnd))
    (hdepth : depthAfter 1 cells = some 1) :
    node.headerLength = byteLength (declarationHeader kind declared) := by
  obtain ⟨header, hheader, hnode⟩ := exists_header_of_locate hlocate
  obtain ⟨us, c, vs, hcells, n, hn, hfound⟩ := exists_cells_of_mem_headers hheader
  rw [hfound] at hnode
  obtain ⟨lineStart, _, hcode, _⟩ := exists_code_of_cellsFrom hcells
  obtain ⟨m, rest, hm, htail, rfl⟩ := headerBytes?_eq_some_iff.1 hn
  obtain ⟨xs, ys, zs, hvs, hys, hle, hnodeText, hlength⟩ := exists_cells_of_nodeAt? hcells hnode
  -- From the keyword on, the document reads as the declaration does.
  have hreads := reads_declaration kind hdeclared hspace hinner lineStart
  have hsame : declarationCells kind declared space cells = xs ++ blockCells ys := by
    have hchars : c :: vs.map Prod.fst =
        declarationText kind declared space inner ++ zs.map Prod.fst := by
      rw [← htext, hnodeText, ← List.map_append, ← hvs, List.map_cons]
    have hlen : (declarationCells kind declared space cells).length =
        (xs ++ blockCells ys).length := by
      rw [← hreads.cells_eq none, ← List.length_map Prod.fst, map_fst_cellsFrom, ← htext, hnodeText,
        List.length_map]
    rw [hchars, cellsFrom_append, hreads.cells_eq, hvs] at hcode
    exact (List.append_inj hcode hlen).1
  -- So both have the same block, and the same text before it.
  obtain ⟨hfront, _⟩ := block_unique hsame (open_not_mem_headerCells _ _ hspace) hdepth hys
  have hfrontText : xs.map Prod.fst = declarationHeader kind declared ++ space := by
    rw [← hfront, List.map_append, map_fst_cellsIn,
      ← (reads_header kind hdeclared true).cells_eq none, map_fst_cellsFrom]
  have hpieces : m ++ rest = xs.map Prod.fst ++ (blockCells ys ++ zs).map Prod.fst := by
    rw [← htail, ← List.map_append, ← List.append_assoc, ← hvs, List.map_cons]
  obtain ⟨gap, hgap, hrest⟩ := exists_append_of_byteLength_le hpieces hle
  obtain ⟨rfl, rfl⟩ := headerFront_of_isHeader hdeclared hspace hm (hgap.symm.trans hfrontText)
  have hslice := sliceBytes_pieces (headerFront kind declared) ([' ', ')'] ++ space)
    ((blockCells ys ++ zs).map Prod.fst)
  rw [hlength, List.map_cons, htail, hrest, headerEnd, cellBytes, hgap, byteLength_append, hslice,
    declarationHeader_eq, byteLength_append]
  rfl

end SoloBuild.Description
