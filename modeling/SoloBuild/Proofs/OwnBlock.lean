import SoloBuild.Proofs.DeclarationReading
import SoloBuild.Proofs.LocatedNode

/-!
# Whose block a node has

A declaration has an argument list in parentheses, and a block right behind it. The search for a node
knows neither: its header ends with the first parenthesis behind the name, in whatever region that
stands, and its block is the first one that opens behind the name, in whatever declaration. So a node
is cut at its own header exactly when the first closing parenthesis behind the name is the one that
closes the argument list, and only blanks and comments stand between that and the next brace.

## Key results

- `firstBlock_iff`: the first block of some cells, by the pieces it leaves
- `exists_declarationCells`: the one header that the search lists, by the cells around it
- `splitsAtOwnHeader_iff`: when a node is cut at its own header
- `locate_split`: what is located for a single header, and when the node owns its block
- `locate_block_of_another`: a node with the block of another declaration, and one whose header ends in
  a comment
-/

namespace SoloBuild.Description

open Text

/-! ## Nodes and their argument lists -/

/-- The parentheses in code open and close on balance. -/
def BalancedParens (cells : List Cell) : Prop :=
  cells.count ('(', .code) = cells.count (')', .code) ∧
    ∀ front, front <+: cells → front.count (')', .code) ≤ front.count ('(', .code)

theorem balancedParens_of_not_mem {cells : List Cell} (hopen : ('(', .code) ∉ cells)
    (hclose : (')', .code) ∉ cells) : BalancedParens cells := by
  refine ⟨?_, fun front hfront => ?_⟩
  · rw [List.count_eq_zero_of_not_mem hopen, List.count_eq_zero_of_not_mem hclose]
  · rw [List.count_eq_zero_of_not_mem fun hmem => hclose (hfront.subset hmem)]
    exact Nat.zero_le _

/-- The node is cut at its own header and owns its block: its header ends with the parenthesis that
closes its argument list, and only what separates stands between that and the block. -/
def TargetNode.SplitsAtOwnHeader (node : TargetNode) : Prop :=
  ∃ opening args between inner,
    cellsFrom none .start node.text.toList =
      opening ++ ('(', .code) :: (args ++ (')', .code) :: (between ++ blockCells inner)) ∧
    ('(', .code) ∉ opening ∧ BalancedParens args ∧ (∀ cell ∈ between, isGap cell = true) ∧
    depthAfter 1 inner = some 1 ∧
    node.header = opening.map Prod.fst ++ '(' :: (args.map Prod.fst ++ [')'])

/-- What stands between the name and the block closes the argument list with its first parenthesis of
any region, and separates after it; `named` is what stands between the parenthesis and there. -/
def EndsOwnHeader (named gap : List Cell) : Prop :=
  ∃ args between, gap = args ++ (')', .code) :: between ∧ ')' ∉ args.map Prod.fst ∧
    BalancedParens (named ++ args) ∧ ∀ cell ∈ between, isGap cell = true

/-- The cells of a node that is cut at its own header, on both sides of the cut. -/
theorem TargetNode.SplitsAtOwnHeader.exists_cut {node : TargetNode} (h : node.SplitsAtOwnHeader) :
    ∃ front between inner,
      cellsFrom none .start node.text.toList =
        (front ++ [(')', Region.code)]) ++ (between ++ blockCells inner) ∧
      node.header.length = (front ++ [(')', Region.code)]).length ∧
      ∀ cell ∈ between, isGap cell = true := by
  obtain ⟨opening, args, between, inner, hcells, -, -, hbetween, -, hheader⟩ := h
  refine ⟨opening ++ ('(', .code) :: args, between, inner, ?_, ?_, hbetween⟩
  · rw [hcells]
    simp
  · rw [hheader]
    simp

/-- The last cell of the header of a node that is cut at its own header is a parenthesis in code. -/
theorem TargetNode.SplitsAtOwnHeader.getLast? {node : TargetNode} (h : node.SplitsAtOwnHeader) :
    ((cellsFrom none .start node.text.toList).take node.header.length).getLast? =
      some (')', .code) := by
  obtain ⟨front, between, inner, hcells, hlength, -⟩ := h.exists_cut
  rw [hcells, hlength, List.take_left, List.getLast?_concat]

/-- Behind the header of a node that is cut at its own header the next cell that does not separate is
an opening brace in code. -/
theorem TargetNode.SplitsAtOwnHeader.head?_skipGap {node : TargetNode}
    (h : node.SplitsAtOwnHeader) :
    (skipGap ((cellsFrom none .start node.text.toList).drop node.header.length)).head? =
      some ('{', .code) := by
  obtain ⟨front, between, inner, hcells, hlength, hbetween⟩ := h.exists_cut
  have hbrace : isGap ('{', .code) = false := by decide
  rw [hcells, hlength, List.drop_left, skipGap_append hbetween, blockCells, skipGap_cons hbrace]
  rfl

/-! ## The header of a node -/

/-- The part of the text between the name and the block that belongs to the header: up to the first
closing parenthesis, or nothing when there is none. -/
def upToParen (gap : List Char) : List Char :=
  match upTo? ')' gap with
  | some (front, _) => front ++ [')']
  | none => []

theorem byteLength_upToParen (gap : List Char) : byteLength (upToParen gap) = headerGap gap := by
  unfold upToParen headerGap
  cases upTo? ')' gap with
  | none => rfl
  | some p =>
    show byteLength (p.1 ++ [')']) = byteLength p.1 + 1
    rw [byteLength_append]
    rfl

theorem upToParen_isPrefix (gap : List Char) : upToParen gap <+: gap := by
  unfold upToParen
  split
  · rename_i front rest h
    obtain ⟨rfl, -⟩ := upTo?_eq_some h
    exact ⟨rest, by simp⟩
  · exact List.nil_prefix

/-- The header of a node by the pieces of its text. -/
theorem header_of_pieces {node : TargetNode} {matched gap tail : List Char}
    (htext : node.text.toList = matched ++ (gap ++ tail))
    (hlength : node.headerLength = byteLength matched + headerGap gap) :
    node.header = matched ++ upToParen gap := by
  obtain ⟨rest, hrest⟩ := upToParen_isPrefix gap
  have hsplit : node.text.toList = (matched ++ upToParen gap) ++ (rest ++ tail) := by
    rw [htext, List.append_assoc, ← List.append_assoc (upToParen gap), hrest]
  unfold TargetNode.header
  rw [hlength, ← byteLength_upToParen, ← byteLength_append, hsplit, takeBytes_byteLength_append]

/-! ## When a node is cut at its own header -/

/-- A front of a list that is as long as a front of its image is that front. -/
theorem exists_append_of_map_eq {α β : Type} {f : α → β} {xs ys us vs : List α} {more : List β}
    (h : xs ++ ys = us ++ vs) (hmap : us.map f = xs.map f ++ more) :
    ∃ ws, us = xs ++ ws ∧ ys = ws ++ vs ∧ ws.map f = more := by
  have hprefix : xs <+: us := by
    refine List.prefix_of_prefix_length_le ⟨ys, h⟩ (List.prefix_append us vs) ?_
    have hlength := congrArg List.length hmap
    simp only [List.length_map, List.length_append] at hlength
    omega
  obtain ⟨ws, rfl⟩ := hprefix
  refine ⟨ws, rfl, ?_, ?_⟩
  · rw [List.append_assoc, List.append_cancel_left_eq] at h
    exact h
  · rw [List.map_append, List.append_cancel_left_eq] at hmap
    exact hmap

theorem open_not_mem_of_isGap {cells : List Cell} (h : ∀ cell ∈ cells, isGap cell = true) :
    ('{', Region.code) ∉ cells := by
  intro hmem
  have hgap := h _ hmem
  revert hgap
  decide

/-- A node is cut at its own header exactly when the first closing parenthesis behind its name closes
the argument list, and what follows it up to the block separates only. -/
theorem splitsAtOwnHeader_iff {node : TargetNode} {opening named gap inner : List Cell}
    (hcells : cellsFrom none .start node.text.toList =
      opening ++ ('(', .code) :: (named ++ (gap ++ blockCells inner)))
    (hopening : ('(', .code) ∉ opening) (hgap : ('{', .code) ∉ gap)
    (hinner : depthAfter 1 inner = some 1)
    (hnamed : (named.map Prod.fst).getLast? ≠ some ')')
    (hheader : node.header =
      opening.map Prod.fst ++ '(' :: (named.map Prod.fst ++ upToParen (gap.map Prod.fst))) :
    node.SplitsAtOwnHeader ↔ EndsOwnHeader named gap := by
  constructor
  · rintro ⟨opening', args, between, inner', hcells', hopening', hbalanced, hbetween, -, hheader'⟩
    -- Both cuts of the node begin with the first parenthesis in code.
    obtain ⟨rfl, hrest⟩ := append_cons_inj_of_not_mem (hcells.symm.trans hcells') hopening hopening'
    rw [hheader, List.append_cancel_left_eq, List.cons.injEq] at hheader'
    obtain ⟨-, hchars⟩ := hheader'
    unfold upToParen at hchars
    cases hfind : upTo? ')' (gap.map Prod.fst) with
    | none =>
      -- Without a parenthesis the header would end with the quote behind the name.
      rw [hfind] at hchars
      simp only [List.append_nil] at hchars
      rw [hchars, List.getLast?_concat] at hnamed
      exact absurd rfl hnamed
    | some p =>
      obtain ⟨front, back⟩ := p
      rw [hfind] at hchars
      obtain ⟨hsplit, hfront⟩ := upTo?_eq_some hfind
      simp only [← List.append_assoc, List.append_cancel_right_eq] at hchars
      obtain ⟨more, rfl, hmore, hmoreChars⟩ := exists_append_of_map_eq hrest hchars.symm
      -- The parenthesis lies before the block, which opens at the first brace behind the name.
      have hgapChars : gap.map Prod.fst =
          (more ++ [(')', Region.code)]).map Prod.fst ++ back := by
        rw [hsplit, List.map_append, hmoreChars]
        simp
      have hsame : (more ++ [(')', Region.code)]) ++ (between ++ blockCells inner') =
          gap ++ blockCells inner := by
        rw [hmore]
        simp
      obtain ⟨between', rfl, hblock, -⟩ := exists_append_of_map_eq hsame hgapChars
      obtain ⟨rfl, -⟩ := append_cons_inj_of_not_mem hblock (open_not_mem_of_isGap hbetween)
        fun hmem => hgap (List.mem_append_right _ hmem)
      exact ⟨more, between, by simp, by rw [hmoreChars]; exact hfront, hbalanced, hbetween⟩
  · rintro ⟨args, between, rfl, hnot, hbalanced, hbetween⟩
    refine ⟨opening, named ++ args, between, inner, ?_, hopening, hbalanced, hbetween, hinner, ?_⟩
    · rw [hcells]
      simp
    · rw [hheader, List.map_append, List.map_cons, upToParen, upTo?_append_cons hnot]
      simp

/-! ## The cells around a header -/

/-- A header and what follows it, by their cells in a document: what stands before the header, the
keyword up to the parenthesis, the name with its quotes, and the rest of the document. -/
structure DeclarationCells (text name : List Char) (header : Header)
    (before opening named rest : List Cell) : Prop where
  cells_eq : cellsFrom none .start text = before ++ (opening ++ ('(', .code) :: (named ++ rest))
  code : (classifyBytes text)[header.start]? = some .code
  isHeader : IsHeader header.kind.keyword.toList name
    (opening.map Prod.fst ++ '(' :: named.map Prod.fst)
  paren : ('(', .code) ∉ opening
  start_eq : header.start = cellBytes before
  stop_eq : header.stop = cellBytes before + cellBytes (opening ++ ('(', .code) :: named)

/-- The first block of some cells, by the pieces it leaves. -/
structure FirstBlock (cells gap inner after : List Cell) : Prop where
  cells_eq : cells = gap ++ (blockCells inner ++ after)
  brace : ('{', .code) ∉ gap
  depth : depthAfter 1 inner = some 1

/-- The cells of a node: its header as it was matched, what stands between the name and the block, and
the block. -/
def nodeCells (opening named gap inner : List Cell) : List Cell :=
  opening ++ ('(', .code) :: (named ++ (gap ++ blockCells inner))

/-- The search for a block from the first cell on. -/
theorem firstBlock_iff {cells : List Cell} {opening closing : Nat} :
    balancedBlock cells 0 = some (opening, closing) ↔
      ∃ gap inner after, FirstBlock cells gap inner after ∧ opening = cellBytes gap ∧
        closing = opening + 1 + cellBytes inner := by
  rw [balancedBlock_eq_some_iff]
  constructor
  · rintro ⟨xs, ys, zs, hcells, hxs, hys, -, hopening, hclosing⟩
    refine ⟨xs, ys, zs, ⟨?_, fun hmem => ?_, hys⟩, hopening, hclosing⟩
    · rw [hcells, blockCells]
      simp
    · obtain ⟨us, vs, rfl⟩ := List.append_of_mem hmem
      exact absurd (hxs us vs rfl) (Nat.not_lt_zero _)
  · rintro ⟨gap, inner, after, ⟨rfl, hgap, hinner⟩, hopening, hclosing⟩
    refine ⟨gap, inner, after, ?_, ?_, hinner, Nat.zero_le _, hopening, hclosing⟩
    · simp [blockCells]
    · rintro us vs rfl
      exact absurd (List.mem_append_right us List.mem_cons_self) hgap

/-- A listed header, by the cells around it; any name will do. -/
theorem exists_declarationCells {text name : List Char} {kinds : List TargetKind} {header : Header}
    (h : header ∈ headers text name kinds) :
    ∃ before opening named rest, DeclarationCells text name header before opening named rest := by
  obtain ⟨us, c, vs, hcells, n, hn, hheader⟩ := exists_cells_of_mem_headers h
  obtain ⟨lineStart, -, hcode, -⟩ := exists_code_of_cellsFrom hcells
  obtain ⟨matched, rest, hmatched, htail, rfl⟩ := headerBytes?_eq_some_iff.1 hn
  obtain ⟨opening, named, more, hread, rfl, -, hparen⟩ := hmatched.exists_cells none lineStart rest
  rw [← htail, hcode] at hread
  have hstart : header.start = cellBytes us := by rw [hheader]
  refine ⟨us, opening, named, more, ⟨?_, ?_, hmatched, hparen, hstart, ?_⟩⟩
  · rw [hcells, hread]
  · rw [hstart]
    exact classifyBytes_getElem? hcells
  · rw [hheader]
    simp [cellBytes]

namespace DeclarationCells

variable {text name : List Char} {header : Header} {before opening named rest : List Cell}

/-- The name ends with a quote, so no parenthesis stands right before what follows it. -/
theorem getLast?_named (h : DeclarationCells text name header before opening named rest) :
    (named.map Prod.fst).getLast? ≠ some ')' := by
  intro hlast
  obtain ⟨ws, ws', q, q', -, -, -, hq', hmatched⟩ := h.isHeader.exists_eq
  have hquote := congrArg List.getLast? hmatched
  rw [List.getLast?_append, List.getLast?_cons, hlast] at hquote
  simp [List.getLast?_append, List.getLast?_cons] at hquote
  rw [← hquote] at hq'
  revert hq'
  decide

/-- The block behind a header is the first one of what follows it. -/
theorem balancedBlock_eq (h : DeclarationCells text name header before opening named rest) :
    balancedBlock (text.zip (classify text)) header.stop =
      (balancedBlock rest 0).map fun block => (header.stop + block.1, header.stop + block.2) := by
  have hcells : text.zip (classify text) =
      (before ++ (opening ++ ('(', .code) :: named)) ++ rest := by
    show cellsFrom none .start text = _
    rw [h.cells_eq]
    simp
  have hbytes : header.stop = cellBytes (before ++ (opening ++ ('(', .code) :: named)) := by
    rw [h.stop_eq, ← cellBytes_append]
  rw [hcells, hbytes]
  exact balancedBlock_append _ _ 0

/-- A header has no node exactly when no block behind it is closed. -/
theorem nodeAt?_eq_none_iff (h : DeclarationCells text name header before opening named rest)
    (called : String) :
    nodeAt? text called header = none ↔ ∀ gap inner after, ¬ FirstBlock rest gap inner after := by
  unfold nodeAt?
  rw [h.balancedBlock_eq, Option.map_eq_none_iff, Option.map_eq_none_iff]
  constructor
  · intro hnone gap inner after hblock
    have hsome := firstBlock_iff.2 ⟨gap, inner, after, hblock, rfl, rfl⟩
    rw [hnone] at hsome
    cases hsome
  · intro hno
    rw [Option.eq_none_iff_forall_ne_some]
    rintro ⟨o, c⟩ hsome
    obtain ⟨gap, inner, after, hblock, -, -⟩ := firstBlock_iff.1 hsome
    exact hno gap inner after hblock

/-- The document, by the pieces around the first block behind the header. -/
theorem text_eq (h : DeclarationCells text name header before opening named rest)
    {gap inner after : List Cell} (hblock : FirstBlock rest gap inner after) :
    text = before.map Prod.fst ++
      ((nodeCells opening named gap inner).map Prod.fst ++ after.map Prod.fst) := by
  rw [← map_fst_cellsFrom none .start text, h.cells_eq, hblock.cells_eq, nodeCells]
  simp

/-- The node's text is read as it was read in the document. -/
theorem cellsFrom_nodeCells (h : DeclarationCells text name header before opening named rest)
    {gap inner after : List Cell} (hblock : FirstBlock rest gap inner after) :
    cellsFrom none .start ((nodeCells opening named gap inner).map Prod.fst) =
      nodeCells opening named gap inner := by
  have htext := h.text_eq hblock
  have hcode := h.code
  have hstart : header.start = byteLength (before.map Prod.fst) := h.start_eq
  rw [htext, hstart] at hcode
  -- It begins with a keyword, which ends whatever came before, and ends with a brace.
  obtain ⟨letters, hkey, -, hword⟩ := header.kind.keyword_eq_cons
  obtain ⟨ws, ws', q, q', -, -, -, -, hmatched⟩ := h.isHeader.exists_eq
  have hinitial : isWord header.kind.initial = true :=
    hword _ (by rw [hkey]; exact List.mem_cons_self)
  have hsplit : (nodeCells opening named gap inner).map Prod.fst =
      (opening.map Prod.fst ++ '(' :: named.map Prod.fst) ++
        (gap ++ blockCells inner).map Prod.fst := by
    simp [nodeCells]
  have hhead : ((nodeCells opening named gap inner).map Prod.fst).head? =
      some header.kind.initial := by
    rw [hsplit, hmatched, hkey]
    rfl
  have hlast : ((nodeCells opening named gap inner).map Prod.fst).getLast? = some '}' := by
    simp [nodeCells, blockCells, List.getLast?_append, List.getLast?_cons]
  obtain ⟨us, vs, hread, hus, -⟩ := cellsFrom_pieces hcode hhead hinitial hlast (by decide)
  have hwhole : cellsFrom none .start text =
      before ++ (nodeCells opening named gap inner ++ after) := by
    rw [h.cells_eq, hblock.cells_eq, nodeCells]
    simp
  rw [← htext, hwhole] at hread
  have hfront : before.length = us.length := by
    rw [← List.length_map Prod.fst, ← hus, List.length_map]
  obtain ⟨-, hrest⟩ := List.append_inj hread hfront
  have hlength := congrArg List.length
    (map_fst_cellsFrom none .start ((nodeCells opening named gap inner).map Prod.fst))
  rw [List.length_map, List.length_map] at hlength
  exact (List.append_inj hrest hlength.symm).1.symm

/-- The node of a header, by the first block behind it. -/
theorem exists_node (h : DeclarationCells text name header before opening named rest)
    {gap inner after : List Cell} (hblock : FirstBlock rest gap inner after) (called : String) :
    ∃ node, nodeAt? text called header = some node ∧ node.kind = header.kind ∧
      node.start = header.start ∧
      node.text.toList = (nodeCells opening named gap inner).map Prod.fst ∧
      node.headerLength = byteLength (opening.map Prod.fst ++ '(' :: named.map Prod.fst) +
        headerGap (gap.map Prod.fst) := by
  obtain ⟨kind, start, stop⟩ := header
  have hstart : start = byteLength (before.map Prod.fst) := h.start_eq
  have hstop : stop = byteLength (before.map Prod.fst) +
      byteLength (opening.map Prod.fst ++ '(' :: named.map Prod.fst) := by
    have hbytes := h.stop_eq
    rw [cellBytes, cellBytes, List.map_append, List.map_cons] at hbytes
    exact hbytes
  have hpieces : text = before.map Prod.fst ++
      ((opening.map Prod.fst ++ '(' :: named.map Prod.fst) ++ (gap.map Prod.fst ++
        '{' :: (inner.map Prod.fst ++ '}' :: after.map Prod.fst))) := by
    rw [h.text_eq hblock, nodeCells, blockCells]
    simp
  have hfound : balancedBlock (text.zip (classify text)) stop =
      some (stop + byteLength (gap.map Prod.fst),
        stop + byteLength (gap.map Prod.fst) + 1 + byteLength (inner.map Prod.fst)) := by
    rw [h.balancedBlock_eq, firstBlock_iff.2 ⟨gap, inner, after, hblock, rfl, rfl⟩]
    simp only [Option.map_some, cellBytes, Option.some.injEq, Prod.mk.injEq, true_and]
    omega
  rw [hstop] at hfound
  have hnode := nodeAt?_pieces hpieces called kind hfound
  rw [← hstop, ← hstart] at hnode
  refine ⟨_, hnode, rfl, rfl, ?_, rfl⟩
  rw [String.toList_ofList, nodeCells, blockCells]
  simp

end DeclarationCells

/-! ## Locating -/

/-- What is located when the search lists a single header. Without a closed block behind the name, in
whatever declaration, the scope is unterminated. Otherwise the first block behind the name is the
node's, and the node is cut at its own header exactly when the first closing parenthesis behind the
name closes the argument list and nothing but blanks and comments stands between that and the block. -/
theorem locate_split {document : Document} {name : String} {kinds : List TargetKind}
    {header : Header} (hlist : headers document.text.toList name.toList kinds = [header]) :
    (∃ before opening named rest,
      DeclarationCells document.text.toList name.toList header before opening named rest) ∧
    ∀ before opening named rest,
      DeclarationCells document.text.toList name.toList header before opening named rest →
      (document.locate name kinds = .error (.unterminatedScope name document.path) ↔
        ∀ gap inner after, ¬ FirstBlock rest gap inner after) ∧
      ∀ gap inner after, FirstBlock rest gap inner after →
        ∃ node, document.locate name kinds = .ok node ∧ node.kind = header.kind ∧
          node.start = header.start ∧
          node.text.toList = (nodeCells opening named gap inner).map Prod.fst ∧
          (node.SplitsAtOwnHeader ↔ EndsOwnHeader named gap) := by
  refine ⟨exists_declarationCells (by rw [hlist]; exact List.mem_singleton_self header),
    fun before opening named rest hcells => ⟨?_, fun gap inner after hblock => ?_⟩⟩
  · rw [← hcells.nodeAt?_eq_none_iff name]
    unfold Document.locate
    simp only [hlist]
    cases hnode : nodeAt? document.text.toList name header <;> simp
  · obtain ⟨node, hnode, hkind, hstart, htext, hlength⟩ := hcells.exists_node hblock name
    refine ⟨node, ?_, hkind, hstart, htext, ?_⟩
    · unfold Document.locate
      simp only [hlist, hnode]
    · have hread := hcells.cellsFrom_nodeCells hblock
      rw [← htext] at hread
      have hsplit : node.text.toList = (opening.map Prod.fst ++ '(' :: named.map Prod.fst) ++
          (gap.map Prod.fst ++ (blockCells inner).map Prod.fst) := by
        rw [htext, nodeCells]
        simp
      refine splitsAtOwnHeader_iff hread hcells.paren hblock.brace hblock.depth hcells.getLast?_named
        ?_
      rw [header_of_pieces hsplit hlength]
      simp

/-- A further argument and a comment stand between the name and the block. -/
theorem locate_split_sample :
    let document : Document :=
      ⟨⟨"Game.bff"⟩, "Library( 'X', 'Y' ) // (\n\x7b\n\x7d\nLibrary( 'Y' ) \x7b \x7d"⟩
    headers document.text.toList "X".toList TargetKind.all = [⟨.library, 0, 12⟩] ∧
      ∃ node, document.locate "X" TargetKind.all = .ok node ∧ node.SplitsAtOwnHeader := by
  intro document
  have hlist : headers document.text.toList "X".toList TargetKind.all = [⟨.library, 0, 12⟩] := by
    decide +kernel
  have hcells : DeclarationCells document.text.toList "X".toList ⟨.library, 0, 12⟩ []
      (cellsIn .code "Library".toList) ((' ', .code) :: cellsIn .literal "'X'".toList)
      ((cellsFrom none .start document.text.toList).drop 12) :=
    ⟨by decide +kernel, by decide +kernel,
      @IsHeader.intro _ _ [] [' '] '\'' '\'' (by decide) (by decide) rfl rfl, by decide, rfl,
      by decide⟩
  have hblock : FirstBlock ((cellsFrom none .start document.text.toList).drop 12)
      (cellsIn .code ", ".toList ++ (cellsIn .literal "'Y'".toList ++ (cellsIn .code " ) ".toList ++
        cellsIn .comment "// (\n".toList)))
      [('\n', .code)] (cellsFrom none .start "\nLibrary( 'Y' ) \x7b \x7d".toList) :=
    ⟨by decide +kernel, by decide, by decide⟩
  obtain ⟨node, hnode, -, -, -, hsplits⟩ := ((locate_split hlist).2 _ _ _ _ hcells).2 _ _ _ hblock
  refine ⟨hlist, node, hnode, hsplits.2 ⟨cellsIn .code ", ".toList ++
    (cellsIn .literal "'Y'".toList ++ cellsIn .code " ".toList),
    cellsIn .code " ".toList ++ cellsIn .comment "// (\n".toList, by decide, by decide,
    balancedParens_of_not_mem (by decide) (by decide), by decide⟩⟩

/-- A declaration without a block is given the block of the next one, which is no target of a kind that
is searched for; and a header ends with a parenthesis in a comment, before the one that closes its
argument list. -/
theorem locate_block_of_another :
    (∃ node, Document.locate ⟨⟨"Project.bff"⟩, "Library( 'Foo' )\nAlias( 'After' ) \x7b \x7d"⟩ "Foo"
        TargetKind.all = .ok node ∧
      node.header = "Library( 'Foo' )".toList ∧
      node.body = "\nAlias( 'After' ) \x7b \x7d".toList ∧ ¬ node.SplitsAtOwnHeader) ∧
    ∃ node, Document.locate ⟨⟨"Project.bff"⟩, "Library( 'Foo' // )\n)\n\x7b\n\x7d"⟩ "Foo"
        TargetKind.all = .ok node ∧
      node.header = "Library( 'Foo' // )".toList ∧
      node.body = "\n)\n\x7b\n\x7d".toList ∧ ¬ node.SplitsAtOwnHeader := by
  constructor
  · refine ⟨{ name := "Foo", kind := .library, start := 0, stop := 37, headerLength := 16
              text := "Library( 'Foo' )\nAlias( 'After' ) \x7b \x7d" },
      by decide +kernel, by decide, by decide, fun hsplits => ?_⟩
    -- The next cell behind the header is the first of another declaration.
    have hbrace := hsplits.head?_skipGap
    revert hbrace
    decide +kernel
  · refine ⟨{ name := "Foo", kind := .library, start := 0, stop := 25, headerLength := 19
              text := "Library( 'Foo' // )\n)\n\x7b\n\x7d" },
      by decide +kernel, by decide, by decide, fun hsplits => ?_⟩
    have hparen := hsplits.getLast?
    revert hparen
    decide +kernel

end SoloBuild.Description
