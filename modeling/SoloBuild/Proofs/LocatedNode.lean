import SoloBuild.Proofs.FieldPieces
import SoloBuild.Proofs.LocateCorrect

/-!
# Located nodes stand on their own

A located node is a part of its document, and what stands around it is left behind. Nothing that
decides about the node is lost with it: the reader is in code where the node begins, and its keyword
ends whatever came before; the brace at its end opens nothing that the text behind it could finish.
So the node's text is read as it was read in its document, it declares what the document declares
there, and the same search finds the same node in it, from its first to its last byte.

## Key results

- `exists_pieces_of_locate`: a located node by the pieces of its document
- `cellsFrom_pieces`: the node's text is read as it was read in its document
- `declarations_slice`: what the node's text declares is declared in its document
- `locate_text`: locating the node's text gives the node
-/

namespace SoloBuild.Description

open Text

/-! ## Reading a part of a document -/

namespace ReadState

/-- Only a slash looks ahead. -/
theorem step_of_char_ne_slash {c : Char} (h : c ≠ '/') (state : ReadState)
    (next next' : Option Char) : state.step next c = state.step next' c := by
  cases state with
  | code lineStart => simp only [step, h, false_and, if_false]
  | literal quote escaped => rfl
  | comment => rfl

end ReadState

/-- What follows a text that does not end with a slash does not matter to its cells. -/
theorem cellsFrom_concat_of_ne_slash {c : Char} (h : c ≠ '/') (next : Option Char)
    (state : ReadState) (text : List Char) :
    cellsFrom next state (text ++ [c]) = cellsFrom none state (text ++ [c]) := by
  have hlast : ∀ state : ReadState, cellsFrom next state [c] = cellsFrom none state [c] := by
    intro state
    simp only [cellsFrom_cons, cellsFrom_nil, List.head?_nil, Option.none_or,
      ReadState.step_of_char_ne_slash h state next none]
  rw [cellsFrom_append, cellsFrom_append, hlast]
  rfl

/-- Where a word begins it does not matter whether only blanks came before it on its line. -/
theorem cellsFrom_of_isWord {c : Char} (h : isWord c = true) (next : Option Char)
    (lineStart : Bool) (text : List Char) :
    cellsFrom next (.code lineStart) (c :: text) = cellsFrom next .start (c :: text) := by
  have hindent : ReadState.isIndent c = false := by
    by_contra hblank
    rw [Bool.not_eq_false] at hblank
    cases (isBlank_eq_false_of_isWord h).symm.trans (isBlank_of_isIndent hblank)
  have hstep : ∀ (next : Option Char) (lineStart : Bool),
      (ReadState.code lineStart).step next c = (.code, .code (c == '\n')) := by
    intro next lineStart
    rw [step_isCodeChar (isCodeChar_of_isWord h), hindent, Bool.and_false, Bool.or_false]
  rw [cellsFrom_cons, cellsFrom_cons, hstep, ReadState.start, hstep]

/-- Before a byte of code the reader is in code. -/
theorem exists_code_of_classifyBytes {before rest : List Char} {c : Char}
    (h : (classifyBytes (before ++ c :: rest))[byteLength before]? = some .code) :
    ∃ lineStart, ReadState.start.after ((c :: rest).head?.or none) before = .code lineStart := by
  have hsplit := cellsFrom_append none .start before (c :: rest)
  rw [cellsFrom_cons] at hsplit
  have hregion := classifyBytes_getElem? hsplit
  rw [cellBytes, map_fst_cellsFrom, h] at hregion
  exact ReadState.exists_code_of_step (Option.some.inj hregion).symm

/-- A part of a document that begins with a word in code and ends with something other than a slash
is read as it is read alone. -/
theorem cellsFrom_pieces {before part after : List Char} {c d : Char}
    (hcode : (classifyBytes (before ++ (part ++ after)))[byteLength before]? = some .code)
    (hhead : part.head? = some c) (hword : isWord c = true) (hlast : part.getLast? = some d)
    (hslash : d ≠ '/') :
    ∃ us vs, cellsFrom none .start (before ++ (part ++ after)) =
        us ++ (cellsFrom none .start part ++ vs) ∧
      us.map Prod.fst = before ∧ vs.map Prod.fst = after := by
  obtain ⟨back, hfront⟩ := List.head?_eq_some_iff.1 hhead
  obtain ⟨front, hback⟩ := List.getLast?_eq_some_iff.1 hlast
  have hsplit := cellsFrom_append none .start before (part ++ after)
  -- The reader is in code where the part begins, whatever it has read before.
  obtain ⟨lineStart, hstate⟩ : ∃ lineStart,
      ReadState.start.after ((part ++ after).head?.or none) before = .code lineStart := by
    rw [hfront, List.cons_append] at hcode ⊢
    exact exists_code_of_classifyBytes hcode
  have hpart : cellsFrom none (.code lineStart) (part ++ after) =
      cellsFrom none .start (part ++ after) := by
    rw [hfront, List.cons_append, cellsFrom_of_isWord hword]
  have hend : cellsFrom (after.head?.or none) .start part = cellsFrom none .start part := by
    rw [hback, cellsFrom_concat_of_ne_slash hslash]
  rw [hsplit, hstate, hpart, cellsFrom_append, hend]
  exact ⟨_, _, rfl, map_fst_cellsFrom .., map_fst_cellsFrom ..⟩

/-! ## The pieces of a located node -/

/-- The text of a node by its pieces: its header, what stands between the header and the block, and
the inside of the block. -/
def nodeText (header gap inner : List Char) : List Char :=
  header ++ (gap ++ '{' :: (inner ++ ['}']))

/-- A located node by the pieces of its document. -/
structure NodePieces (document : Document) (name : String) (kinds : List TargetKind)
    (node : TargetNode) (before header gap inner after : List Char) : Prop where
  document_eq : document.text.toList = before ++ (nodeText header gap inner ++ after)
  isHeader : IsHeader node.kind.keyword.toList name.toList header
  boundary : isWordBoundary before.getLast? header.head? = true
  code : (classifyBytes document.text.toList)[byteLength before]? = some .code
  kind_mem : node.kind ∈ kinds
  declarations_eq : declarations document.text.toList name.toList kinds =
    {(node.kind, byteLength before)}
  block : balancedBlock (cellsFrom none .start document.text.toList)
      (byteLength before + byteLength header) =
    some (byteLength before + (byteLength header + byteLength gap),
      byteLength before + (byteLength header + byteLength gap + 1 + byteLength inner))
  node_eq : node = { name, kind := node.kind
                     start := byteLength before
                     stop := byteLength before + byteLength (nodeText header gap inner)
                     headerLength := byteLength header + headerGap gap
                     text := String.ofList (nodeText header gap inner) }

theorem byteLength_nodeText (header gap inner : List Char) :
    byteLength (nodeText header gap inner) =
      byteLength header + byteLength gap + 1 + byteLength inner + 1 := by
  simp only [nodeText, byteLength_append, byteLength_cons, byteLength_nil, utf8Size_open,
    utf8Size_close]
  omega

/-- Every located node has its pieces. -/
theorem exists_pieces_of_locate {document : Document} {name : String} {kinds : List TargetKind}
    {node : TargetNode} (hname : ∀ c ∈ name.toList, Launcher.isTargetChar c = true)
    (h : document.locate name kinds = .ok node) :
    ∃ before header gap inner after,
      NodePieces document name kinds node before header gap inner after := by
  obtain ⟨⟨kind, start, stop⟩, hlist, hnode⟩ := headers_of_locate h
  have hmem : (⟨kind, start, stop⟩ : Header) ∈ headers document.text.toList name.toList kinds :=
    hlist ▸ List.mem_singleton_self _
  obtain ⟨hkind, hcode, before, header, rest, htext, hheader, hboundary, hstart, hstop⟩ :=
    (mem_headers_iff hname).1 hmem
  simp only at hkind hcode hheader hstart hstop
  subst hstart hstop
  obtain ⟨⟨opening, closing⟩, hblock, -⟩ := Option.map_eq_some_iff.1 hnode
  have hblock' : balancedBlock (cellsFrom none .start ((before ++ header) ++ rest))
      (byteLength (before ++ header)) = some (opening, closing) := by
    rw [List.append_assoc, ← htext, byteLength_append]
    exact hblock
  obtain ⟨gap, inner, after, rfl, rfl, rfl⟩ := exists_pieces_of_block hblock'
  simp only [byteLength_append] at hblock
  have hpieces := nodeAt?_pieces htext name kind hblock
  rw [hnode, Option.some.injEq] at hpieces
  have hkind' : node.kind = kind := by rw [hpieces]
  refine ⟨before, header, gap, inner, after, ?_, ?_, hboundary, hcode, ?_, ?_, ?_, ?_⟩
  · rw [htext, nodeText]
    simp
  · rw [hkind']
    exact hheader
  · rw [hkind']
    exact hkind
  · rw [declarations_eq_headers hname, hlist, hkind']
    ext d
    simp
  · rw [← Nat.add_assoc, ← Nat.add_assoc, ← Nat.add_assoc, ← Nat.add_assoc]
    exact hblock
  · rw [byteLength_nodeText, hpieces, nodeText]
    simp only [TargetNode.mk.injEq, true_and, and_true]
    omega

/-- Of two fronts of the same cells, the one with fewer bytes begins the other. -/
theorem isPrefix_of_cellBytes_lt {xs us whole : List Cell} (hx : xs <+: whole) (hu : us <+: whole)
    (hle : cellBytes us ≤ cellBytes xs) : us <+: xs := by
  rcases List.prefix_or_prefix_of_prefix hx hu with ⟨ws, rfl⟩ | h
  · cases ws with
    | nil => rw [List.append_nil]
    | cons w ws =>
      have := w.1.utf8Size_pos
      simp only [cellBytes_append, cellBytes_cons] at hle
      omega
  · exact h

/-- A block that ends in a front of some cells is the block of the front. -/
theorem balancedBlock_front {xs ys : List Cell} {start opening closing : Nat}
    (h : balancedBlock (xs ++ ys) start = some (opening, closing))
    (hclosing : closing < cellBytes xs) :
    balancedBlock xs start = some (opening, closing) := by
  obtain ⟨us, vs, ws, hcells, hus, hvs, hstart, hopening, rfl⟩ := balancedBlock_eq_some_iff.1 h
  have hblock : us ++ ('{', .code) :: (vs ++ [('}', .code)]) <+: xs := by
    refine isPrefix_of_cellBytes_lt (List.prefix_append xs ys) ⟨ws, by rw [hcells]; simp⟩ ?_
    simp only [cellBytes_append, cellBytes_cons, cellBytes_nil, utf8Size_open, utf8Size_close]
    omega
  obtain ⟨ws', rfl⟩ := hblock
  exact balancedBlock_eq_some_iff.2 ⟨us, vs, ws', by simp, hus, hvs, hstart, hopening, rfl⟩

namespace NodePieces

variable {document : Document} {name : String} {kinds : List TargetKind} {node : TargetNode}
  {before header gap inner after : List Char}

theorem text_eq (h : NodePieces document name kinds node before header gap inner after) :
    node.text.toList = nodeText header gap inner := by
  rw [h.node_eq, String.toList_ofList]

/-- A node begins with the initial of its keyword. -/
theorem head?_header (h : NodePieces document name kinds node before header gap inner after) :
    header.head? = some node.kind.initial ∧ isWord node.kind.initial = true := by
  obtain ⟨letters, hkey, -, hword⟩ := node.kind.keyword_eq_cons
  obtain ⟨_, _, _, _, -, -, -, -, hheader⟩ := h.isHeader.exists_eq
  refine ⟨?_, hword _ (by rw [hkey]; exact List.mem_cons_self)⟩
  rw [hheader, hkey]
  rfl

theorem head?_nodeText (h : NodePieces document name kinds node before header gap inner after) :
    (nodeText header gap inner).head? = header.head? := by
  obtain ⟨c, cs, hheader⟩ := List.exists_cons_of_ne_nil h.isHeader.ne_nil
  rw [nodeText, hheader]
  rfl

/-- The node's text is read as it was read in its document. -/
theorem cells (h : NodePieces document name kinds node before header gap inner after) :
    ∃ us vs, cellsFrom none .start document.text.toList =
        us ++ (cellsFrom none .start node.text.toList ++ vs) ∧
      us.map Prod.fst = before ∧ vs.map Prod.fst = after := by
  obtain ⟨hinitial, hword⟩ := h.head?_header
  have hlast : (nodeText header gap inner).getLast? = some '}' := by
    simp [nodeText, List.getLast?_append, List.getLast?_cons]
  have hcode := h.code
  rw [h.document_eq] at hcode
  rw [h.document_eq, h.text_eq]
  exact cellsFrom_pieces hcode (h.head?_nodeText.trans hinitial) hword hlast (by decide)

/-- The bytes of the node's text have the regions that they have in its document. -/
theorem classifyBytes_eq (h : NodePieces document name kinds node before header gap inner after) :
    ∃ front back, classifyBytes document.text.toList =
        front ++ (classifyBytes node.text.toList ++ back) ∧ front.length = byteLength before := by
  obtain ⟨us, vs, hcells, rfl, -⟩ := h.cells
  refine ⟨regionBytes us, regionBytes vs, ?_, length_regionBytes us⟩
  rw [classifyBytes_eq_regionBytes, hcells, regionBytes_append, regionBytes_append]
  rfl

/-- What the node's text declares is declared in its document. -/
theorem declarations_slice (h : NodePieces document name kinds node before header gap inner after)
    {kind : TargetKind} {offset : Nat}
    (hdeclared : (kind, offset) ∈ declarations node.text.toList name.toList kinds) :
    (kind, byteLength before + offset) ∈
      declarations document.text.toList name.toList kinds := by
  obtain ⟨hkind, hcode, stop, front, other, rest, htext, hother, hboundary, rfl, rfl⟩ := hdeclared
  simp only at hkind hcode hother hboundary
  refine ⟨hkind, ?_, byteLength before + (byteLength front + byteLength other),
    before ++ front, other, rest ++ after, ?_, hother, ?_, ?_, ?_⟩
  · obtain ⟨before', back, hbytes, hlength⟩ := h.classifyBytes_eq
    simp only
    obtain ⟨hlt, -⟩ := List.getElem?_eq_some_iff.1 hcode
    rw [hbytes, ← hlength, List.getElem?_append_right (Nat.le_add_right ..),
      Nat.add_sub_cancel_left, List.getElem?_append_left hlt, hcode]
  · rw [h.document_eq, ← h.text_eq, htext]
    simp
  · -- A header at the front of the text begins with the character that the node begins with.
    cases front with
    | nil =>
      have hhead : other.head? = header.head? := by
        obtain ⟨c, cs, rfl⟩ := List.exists_cons_of_ne_nil hother.ne_nil
        rw [← h.head?_nodeText, ← h.text_eq, htext]
        rfl
      rw [List.append_nil, hhead]
      exact h.boundary
    | cons c cs =>
      rw [List.getLast?_append_cons]
      exact hboundary
  · exact (byteLength_append ..).symm
  · rw [Nat.add_assoc]

/-- The node's text declares the name once, at its first byte. -/
theorem headers_text (h : NodePieces document name kinds node before header gap inner after)
    (hname : ∀ c ∈ name.toList, Launcher.isTargetChar c = true) (hkinds : kinds.Nodup) :
    headers node.text.toList name.toList kinds = [⟨node.kind, 0, byteLength header⟩] := by
  have hheader : HeaderAt node.text.toList name.toList node.kind 0 (byteLength header) := by
    refine ⟨[], header, gap ++ '{' :: (inner ++ ['}']), ?_, h.isHeader, ?_, rfl,
      (Nat.zero_add _).symm⟩
    · rw [h.text_eq, nodeText, List.nil_append]
    · obtain ⟨hinitial, hword⟩ := h.head?_header
      rw [hinitial]
      simp [isWordBoundary, hword]
  refine headers_of_declarations_eq hname hkinds ?_ hheader
  ext ⟨kind, offset⟩
  rw [Set.mem_singleton_iff, Prod.mk.injEq]
  constructor
  · intro hdeclared
    have hmoved := h.declarations_slice hdeclared
    rw [h.declarations_eq, Set.mem_singleton_iff, Prod.mk.injEq] at hmoved
    exact ⟨hmoved.1, by omega⟩
  · rintro ⟨rfl, rfl⟩
    refine ⟨h.kind_mem, ?_, _, hheader⟩
    obtain ⟨front, back, hbytes, hlength⟩ := h.classifyBytes_eq
    have hpos : 0 < (classifyBytes node.text.toList).length := by
      rw [length_classifyBytes, h.text_eq, byteLength_nodeText]
      omega
    have hcode := h.code
    rw [hbytes, ← hlength, List.getElem?_append_right (Nat.le_refl _), Nat.sub_self,
      List.getElem?_append_left hpos] at hcode
    exact hcode

/-- The block of the node is the block of its text. -/
theorem balancedBlock_text
    (h : NodePieces document name kinds node before header gap inner after) :
    balancedBlock (cellsFrom none .start node.text.toList) (byteLength header) =
      some (byteLength header + byteLength gap,
        byteLength header + byteLength gap + 1 + byteLength inner) := by
  obtain ⟨us, vs, hcells, hus, -⟩ := h.cells
  have hbytes : cellBytes us = byteLength before := by rw [cellBytes, hus]
  have hblock := h.block
  rw [hcells, ← hbytes, balancedBlock_append, Option.map_eq_some_iff] at hblock
  obtain ⟨⟨opening, closing⟩, hblock, hmoved⟩ := hblock
  simp only [Prod.mk.injEq, Nat.add_left_cancel_iff] at hmoved
  obtain ⟨rfl, rfl⟩ := hmoved
  refine balancedBlock_front hblock ?_
  rw [cellBytes, map_fst_cellsFrom, h.text_eq, byteLength_nodeText]
  omega

/-- The node of its text is the node, moved to the front. -/
theorem nodeAt?_text (h : NodePieces document name kinds node before header gap inner after) :
    nodeAt? node.text.toList name ⟨node.kind, 0, byteLength header⟩ =
      some { node with start := 0, stop := byteLength node.text.toList } := by
  have htext : node.text.toList =
      [] ++ (header ++ (gap ++ '{' :: (inner ++ '}' :: []))) := by
    rw [h.text_eq, nodeText, List.nil_append]
  have hblock : balancedBlock (node.text.toList.zip (classify node.text.toList))
      (byteLength [] + byteLength header) =
      some (byteLength [] + byteLength header + byteLength gap,
        byteLength [] + byteLength header + byteLength gap + 1 + byteLength inner) := by
    rw [byteLength_nil, Nat.zero_add]
    exact h.balancedBlock_text
  have hnode := nodeAt?_pieces htext name node.kind hblock
  rw [byteLength_nil, Nat.zero_add] at hnode
  rw [hnode, ← byteLength_nodeText, ← h.text_eq]
  exact congrArg (fun found : TargetNode =>
    some { found with start := 0, stop := byteLength node.text.toList }) h.node_eq.symm

end NodePieces

/-- A located node stands on its own. In a document that is nothing but its text the same search
finds the same node, from the first to the last byte; and every byte of the text belongs to what it
belongs to in the document. -/
theorem locate_text {document : Document} {name : String} {kinds : List TargetKind}
    {node : TargetNode} (hname : Launcher.IsTargetName name.toList) (hkinds : kinds.Nodup)
    (h : document.locate name kinds = .ok node) (path : Path) :
    Document.locate ⟨path, node.text⟩ name kinds =
        .ok { node with start := 0, stop := byteLength node.text.toList } ∧
      classifyBytes node.text.toList =
        (classifyBytes document.text.toList).extract node.start node.stop := by
  obtain ⟨before, header, gap, inner, after, hpieces⟩ := exists_pieces_of_locate hname.2 h
  constructor
  · rw [Document.locate]
    simp only [hpieces.headers_text hname.2 hkinds, hpieces.nodeAt?_text]
  · obtain ⟨front, back, hbytes, hlength⟩ := hpieces.classifyBytes_eq
    have hstart : node.start = front.length := by rw [hpieces.node_eq, hlength]
    have hstop : node.stop - node.start = (classifyBytes node.text.toList).length := by
      rw [length_classifyBytes, hpieces.text_eq, hpieces.node_eq, Nat.add_sub_cancel_left]
    rw [hbytes, List.extract_eq_take_drop, hstop, hstart, List.drop_left, List.take_left]

/-- The name is also written in a comment before the node, and in a literal behind it. -/
theorem locate_text_sample :
    let text := "Library( 'X' ) \x7b .A = '\x7d' // \x7b\n \x7d"
    let document : Document :=
      ⟨⟨"Game.bff"⟩, "// Library('X')\n'é' \x7b " ++ text ++ " \x7d 'ObjectList('X') "⟩
    let node : TargetNode :=
      { name := "X", kind := .library, start := 23, stop := 56, headerLength := 14, text }
    Launcher.IsTargetName "X".toList ∧ TargetKind.all.Nodup ∧
      document.locate "X" TargetKind.all = .ok node ∧
      Document.locate ⟨⟨"X.bff"⟩, text⟩ "X" TargetKind.all =
        .ok { node with start := 0, stop := 33 } ∧
      classifyBytes text.toList = (classifyBytes document.text.toList).extract 23 56 := by
  intro text document node
  have hname : Launcher.IsTargetName "X".toList := by decide
  have hkinds : TargetKind.all.Nodup := by decide
  have hlocate : document.locate "X" TargetKind.all = .ok node := by decide +kernel
  have hbytes : byteLength node.text.toList = 33 := by decide +kernel
  obtain ⟨halone, hregions⟩ := locate_text hname hkinds hlocate ⟨"X.bff"⟩
  rw [hbytes] at halone
  exact ⟨hname, hkinds, hlocate, halone, hregions⟩

end SoloBuild.Description
