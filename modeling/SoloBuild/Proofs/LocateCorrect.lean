import Mathlib.Data.Set.Card
import SoloBuild.Proofs.LocateAppend

/-!
# What `locate` finds

The declarations of a name in a document are a set: the pairs of a kind and a byte offset such that
a header of that kind and name begins there, in code. Locating answers by the number of its members
alone, and with exactly one member by the block that follows its header.

## Key results

- `mem_headers_iff` / `ncard_declarations`: the headers found are the declarations, each once
- `nodeAt?_pieces`: the located node by the pieces of its document
- `locate_eq_search`: locating is the search for declarations, in any order of the kinds
-/

namespace SoloBuild.Description

open Text

/-- A header of the kind and name begins at byte `offset` of the text, at a word boundary, and ends
    at byte `stop`. -/
def HeaderAt (text name : List Char) (kind : TargetKind) (offset stop : Nat) : Prop :=
  ∃ before header rest, text = before ++ (header ++ rest) ∧
    IsHeader kind.keyword.toList name header ∧
    isWordBoundary before.getLast? header.head? = true ∧
    offset = byteLength before ∧ stop = offset + byteLength header

/-- The declarations of a name among some kinds: where a header begins at a byte of code. -/
def declarations (text name : List Char) (kinds : List TargetKind) : Set (TargetKind × Nat) :=
  {d | d.1 ∈ kinds ∧ (classifyBytes text)[d.2]? = some .code ∧
    ∃ stop, HeaderAt text name d.1 d.2 stop}

/-- The byte offset lies between two characters of the text, or at one of its ends. -/
def IsBoundary (text : List Char) (offset : Nat) : Prop :=
  ∃ front back, text = front ++ back ∧ byteLength front = offset

/-- What the node of a declaration is: the part of the document from its keyword to the brace that
    closes its block, with a header that ends between its name and its block. -/
structure LocatedAt (text : List Char) (kind : TargetKind) (offset stop opening closing : Nat)
    (node : TargetNode) : Prop where
  kind_eq : node.kind = kind
  start_eq : node.start = offset
  stop_eq : node.stop = closing + 1
  slice : ∃ before after, text = before ++ (node.text.toList ++ after) ∧
    byteLength before = node.start ∧
    byteLength before + byteLength node.text.toList = node.stop
  keyword : kind.keyword.toList <+: node.text.toList
  brace : node.text.toList.getLast? = some '}'
  /-- The header holds the match. -/
  match_le : stop ≤ offset + node.headerLength
  /-- The header ends before the block opens. -/
  le_opening : offset + node.headerLength ≤ opening
  boundaries : ∀ n ∈ [stop, offset + node.headerLength, opening], IsBoundary text n

/-! ## Headers and declarations -/

/-- The cells of a text in two parts. -/
theorem exists_cells_of_append (next : Option Char) (state : ReadState) {text xs ys : List Char}
    (h : text = xs ++ ys) :
    ∃ us vs, cellsFrom next state text = us ++ vs ∧ us.map Prod.fst = xs ∧
      vs.map Prod.fst = ys :=
  List.map_eq_append_iff.1 ((map_fst_cellsFrom next state text).trans h)

/-- The bytes of some cells, as their regions. -/
def regionBytes (cells : List Cell) : List Region :=
  cells.flatMap fun (c, region) => List.replicate c.utf8Size region

theorem regionBytes_cons (cell : Cell) (cells : List Cell) :
    regionBytes (cell :: cells) =
      List.replicate cell.1.utf8Size cell.2 ++ regionBytes cells := rfl

@[simp] theorem regionBytes_append (xs ys : List Cell) :
    regionBytes (xs ++ ys) = regionBytes xs ++ regionBytes ys :=
  List.flatMap_append

@[simp] theorem length_regionBytes (cells : List Cell) :
    (regionBytes cells).length = cellBytes cells := by
  induction cells with
  | nil => rfl
  | cons cell cells ih =>
    rw [regionBytes_cons, List.length_append, List.length_replicate, ih, cellBytes_cons]

theorem classifyBytes_eq_regionBytes (text : List Char) :
    classifyBytes text = regionBytes (cellsFrom none .start text) := rfl

theorem length_classifyBytes (text : List Char) :
    (classifyBytes text).length = byteLength text := by
  rw [classifyBytes_eq_regionBytes, length_regionBytes, cellBytes, map_fst_cellsFrom]

/-- Every byte of a character has its region. -/
theorem classifyBytes_getElem? {text : List Char} {us vs : List Cell} {cell : Cell}
    (h : cellsFrom none .start text = us ++ cell :: vs) :
    (classifyBytes text)[cellBytes us]? = some cell.2 := by
  have hpos := cell.1.utf8Size_pos
  rw [classifyBytes_eq_regionBytes, h, regionBytes_append, regionBytes_cons,
    List.getElem?_append_right (by simp), length_regionBytes, Nat.sub_self,
    List.getElem?_append_left (by simpa using hpos), List.getElem?_replicate, if_pos hpos]

/-- Headers are not empty. -/
theorem IsHeader.ne_nil {keyword name header : List Char} (h : IsHeader keyword name header) :
    header ≠ [] := by
  obtain ⟨_, _, _, _⟩ := h
  simp

/-- The headers that the search finds are the headers of the kinds that begin in code. -/
theorem mem_headers_iff {text name : List Char} {kinds : List TargetKind} {header : Header}
    (hname : ∀ c ∈ name, Launcher.isTargetChar c = true) :
    header ∈ headers text name kinds ↔
      header.kind ∈ kinds ∧ (classifyBytes text)[header.start]? = some .code ∧
        HeaderAt text name header.kind header.start header.stop := by
  rw [headers_eq_declarationsFrom hname, List.mem_flatMap]
  simp only [mem_declarationsFrom_iff, headerBytes?_eq_some_iff, Nat.zero_add, Option.or_none]
  constructor
  · rintro ⟨kind, hkind, us, c, vs, hcells, hboundary, n, ⟨m, rest, hm, hrest, rfl⟩, rfl⟩
    have htext : text = us.map Prod.fst ++ (m ++ rest) := by
      rw [← map_fst_cellsFrom none .start text, hcells, List.map_append, List.map_cons, hrest]
    refine ⟨hkind, classifyBytes_getElem? hcells, us.map Prod.fst, m, rest, htext, hm, ?_, rfl, rfl⟩
    obtain ⟨d, m', rfl⟩ := List.exists_cons_of_ne_nil hm.ne_nil
    rw [List.head?_cons, ← (List.cons.inj hrest).1]
    exact hboundary
  · obtain ⟨kind, start, stop⟩ := header
    rintro ⟨hkind, hcode, before, m, rest, htext, hm, hboundary, hstart, hstop⟩
    simp only at hkind hcode hm hstart hstop
    obtain ⟨us, vs, hcells, hus, hvs⟩ := exists_cells_of_append none .start htext
    obtain ⟨d, m', rfl⟩ := List.exists_cons_of_ne_nil hm.ne_nil
    obtain ⟨⟨c, region⟩, vs, rfl⟩ : ∃ cell vs', vs = cell :: vs' :=
      List.exists_cons_of_ne_nil (by rintro rfl; simp at hvs)
    simp only [List.map_cons, List.cons_append, List.cons.injEq] at hvs
    obtain ⟨rfl, hvs⟩ := hvs
    -- The byte at the start of the header is the first of the character there.
    have hus' : cellBytes us = start := by rw [cellBytes, hus, hstart]
    have hregion := classifyBytes_getElem? hcells
    rw [hus', hcode] at hregion
    obtain rfl : Region.code = region := Option.some.inj hregion
    refine ⟨kind, hkind, us, c, vs, hcells, ?_, _, ⟨c :: m', rest, hm, ?_, rfl⟩, ?_⟩
    · rw [hus]; simpa using hboundary
    · rw [hvs]; rfl
    · rw [hus', hstop]

/-- The search lists no declaration twice. -/
theorem nodup_headers {text name : List Char} {kinds : List TargetKind}
    (hname : ∀ c ∈ name, Launcher.isTargetChar c = true) (hkinds : kinds.Nodup) :
    ((headers text name kinds).map fun header => (header.kind, header.start)).Nodup := by
  rw [headers_eq_declarationsFrom hname, List.map_flatMap, List.nodup_flatMap]
  constructor
  -- Of one kind, the headers begin at ascending offsets; those of two kinds differ by their kind.
  · intro kind _
    refine List.Pairwise.map _ (fun a b hlt heq => ?_) (pairwise_declarationsFrom ..)
    simp only [Prod.mk.injEq] at heq
    omega
  · refine hkinds.imp fun {kind kind'} hne => ?_
    rw [Function.onFun, List.disjoint_left]
    rintro d hd hd'
    obtain ⟨a, ha, rfl⟩ := List.mem_map.1 hd
    obtain ⟨b, hb, heq⟩ := List.mem_map.1 hd'
    obtain ⟨us, c, vs, _, _, n, _, rfl⟩ := mem_declarationsFrom_iff.1 ha
    obtain ⟨us', c', vs', _, _, n', _, rfl⟩ := mem_declarationsFrom_iff.1 hb
    exact hne (Prod.mk.inj heq).1.symm

/-- The declarations are those the search lists. -/
theorem declarations_eq_headers {text name : List Char} {kinds : List TargetKind}
    (hname : ∀ c ∈ name, Launcher.isTargetChar c = true) :
    declarations text name kinds =
      {d | d ∈ (headers text name kinds).map fun header => (header.kind, header.start)} := by
  ext ⟨kind, offset⟩
  simp only [declarations, Set.mem_ofPred_eq, List.mem_map, mem_headers_iff hname]
  constructor
  · rintro ⟨hkind, hcode, stop, hstop⟩
    exact ⟨⟨kind, offset, stop⟩, ⟨hkind, hcode, hstop⟩, rfl⟩
  · rintro ⟨header, ⟨hkind, hcode, hstop⟩, heq⟩
    obtain ⟨rfl, rfl⟩ := Prod.mk.inj heq
    exact ⟨hkind, hcode, header.stop, hstop⟩

/-- There are finitely many declarations, as many as the search lists. -/
theorem ncard_declarations (text : List Char) {name : List Char} {kinds : List TargetKind}
    (hname : ∀ c ∈ name, Launcher.isTargetChar c = true) (hkinds : kinds.Nodup) :
    (declarations text name kinds).Finite ∧
      (declarations text name kinds).ncard = (headers text name kinds).length := by
  rw [declarations_eq_headers hname]
  refine ⟨List.finite_toSet _, ?_⟩
  rw [← List.coe_toFinset, Set.ncard_coe_finset,
    List.toFinset_card_of_nodup (nodup_headers hname hkinds), List.length_map]

/-! ## The node of a declaration -/

/-- A front that is no longer than another front of the same text begins it. -/
theorem exists_append_of_byteLength_le {xs ys us vs : List Char} (h : xs ++ ys = us ++ vs)
    (hle : byteLength xs ≤ byteLength us) : ∃ ws, us = xs ++ ws ∧ ys = ws ++ vs := by
  rcases List.append_eq_append_iff.1 h with ⟨as, hus, hys⟩ | ⟨bs, hxs, hvs⟩
  · exact ⟨as, hus, hys⟩
  · cases bs with
    | nil => exact ⟨[], by simpa using hxs.symm, by simpa using hvs.symm⟩
    | cons b bs =>
      have := b.utf8Size_pos
      simp only [hxs, byteLength_append, byteLength_cons] at hle
      omega

/-- Two fronts of one text with the same number of bytes are the same. -/
theorem append_inj_of_byteLength {xs ys us vs : List Char} (h : xs ++ ys = us ++ vs)
    (hbytes : byteLength xs = byteLength us) : xs = us ∧ ys = vs := by
  obtain ⟨ws, rfl, rfl⟩ := exists_append_of_byteLength_le h (Nat.le_of_eq hbytes)
  cases ws with
  | nil => simp
  | cons w ws =>
    have := w.utf8Size_pos
    simp only [byteLength_append, byteLength_cons] at hbytes
    omega

/-- The pieces of a document around the block that follows a front of it. -/
theorem exists_pieces_of_block {front rest : List Char} {opening closing : Nat}
    (h : balancedBlock (cellsFrom none .start (front ++ rest)) (byteLength front) =
      some (opening, closing)) :
    ∃ gap inner after, rest = gap ++ '{' :: (inner ++ '}' :: after) ∧
      opening = byteLength (front ++ gap) ∧ closing = opening + 1 + byteLength inner := by
  obtain ⟨xs, ys, zs, hcells, _, _, hstart, hopening, hclosing⟩ := balancedBlock_eq_some_iff.1 h
  have htext : front ++ rest =
      xs.map Prod.fst ++ '{' :: (ys.map Prod.fst ++ '}' :: zs.map Prod.fst) := by
    rw [← map_fst_cellsFrom none .start (front ++ rest), hcells]
    simp
  -- The block opens at or after the end of the front, so the front lies before its brace.
  have hle : byteLength front ≤ cellBytes xs := hopening ▸ hstart
  obtain ⟨gap, hgap, hrest⟩ := exists_append_of_byteLength_le htext hle
  exact ⟨gap, ys.map Prod.fst, zs.map Prod.fst, hrest, by rw [hopening, cellBytes, hgap], hclosing⟩

/-- How far the header reaches into the text between the name and the block. -/
def headerGap (gap : List Char) : Nat :=
  match upTo? ')' gap with
  | some (front, _) => byteLength front + 1
  | none => 0

theorem headerGap_le (gap : List Char) : headerGap gap ≤ byteLength gap := by
  rw [headerGap]
  split
  · rename_i front rest h
    obtain ⟨rfl, _⟩ := upTo?_eq_some h
    have : (')' : Char).utf8Size = 1 := rfl
    simp only [byteLength_append, byteLength_cons]
    omega
  · exact Nat.zero_le _

/-- The end of what `headerGap` measures lies between two characters. -/
theorem isBoundary_headerGap (gap : List Char) : IsBoundary gap (headerGap gap) := by
  rw [headerGap]
  split
  · rename_i front rest h
    obtain ⟨rfl, _⟩ := upTo?_eq_some h
    exact ⟨front ++ [')'], rest, by simp, by simp; rfl⟩
  · exact ⟨[], gap, rfl, rfl⟩

/-- The node of a declaration by the pieces of its document. -/
theorem nodeAt?_pieces {before header gap inner after : List Char} {text : List Char}
    (htext : text = before ++ (header ++ (gap ++ '{' :: (inner ++ '}' :: after))))
    (name : String) (kind : TargetKind)
    (hblock : balancedBlock (text.zip (classify text)) (byteLength before + byteLength header) =
      some (byteLength before + byteLength header + byteLength gap,
        byteLength before + byteLength header + byteLength gap + 1 + byteLength inner)) :
    nodeAt? text name ⟨kind, byteLength before, byteLength before + byteLength header⟩ =
      some { name, kind
             start := byteLength before
             stop := byteLength before + byteLength header + byteLength gap + 1 +
               byteLength inner + 1
             headerLength := byteLength header + headerGap gap
             text := String.ofList (header ++ (gap ++ '{' :: (inner ++ ['}']))) } := by
  have hgap : sliceBytes (byteLength before + byteLength header)
      (byteLength before + byteLength header + byteLength gap) text = gap := by
    have h := sliceBytes_pieces (before ++ header) gap ('{' :: (inner ++ '}' :: after))
    rw [byteLength_append, List.append_assoc] at h
    rw [htext]
    exact h
  have hend : headerEnd text (byteLength before + byteLength header)
      (byteLength before + byteLength header + byteLength gap) =
      byteLength before + byteLength header + headerGap gap := by
    rw [headerEnd, hgap, headerGap]
    cases upTo? ')' gap with
    | none => rfl
    | some p => exact Nat.add_assoc ..
  have hslice : sliceBytes (byteLength before)
      (byteLength before + byteLength header + byteLength gap + 1 + byteLength inner + 1) text =
      header ++ (gap ++ '{' :: (inner ++ ['}'])) := by
    have h := sliceBytes_pieces before (header ++ (gap ++ '{' :: (inner ++ ['}']))) after
    simp only [byteLength_append, byteLength_cons, byteLength_nil, utf8Size_open,
      utf8Size_close] at h
    rw [htext, ← h]
    congr 1
    · omega
    · simp only [List.append_assoc, List.cons_append, List.nil_append]
  rw [nodeAt?, hblock]
  simp only [Option.map_some, hslice, hend, Option.some.injEq, TargetNode.mk.injEq, true_and,
    and_true]
  omega

/-- With one declaration, the node is given by the block that follows its header. -/
theorem nodeAt?_locatedAt {text : List Char} {name : String} {kind : TargetKind}
    {offset stop opening closing : Nat} (hheader : HeaderAt text name.toList kind offset stop)
    (hblock : balancedBlock (text.zip (classify text)) stop = some (opening, closing)) :
    ∃ node, nodeAt? text name ⟨kind, offset, stop⟩ = some node ∧
      node.name = name ∧ LocatedAt text kind offset stop opening closing node := by
  obtain ⟨before, header, rest, htext, hheader, _, rfl, rfl⟩ := hheader
  have hblock' := hblock
  rw [htext, ← List.append_assoc, ← byteLength_append] at hblock'
  obtain ⟨gap, inner, after, hrest, rfl, rfl⟩ := exists_pieces_of_block hblock'
  rw [hrest] at htext
  rw [byteLength_append, byteLength_append] at hblock
  refine ⟨_, nodeAt?_pieces htext name kind hblock, rfl, ?_⟩
  have hgap := headerGap_le gap
  constructor
  · rfl
  · rfl
  · simp only [byteLength_append]
  · refine ⟨before, after, ?_, rfl, ?_⟩
    · rw [htext, String.toList_ofList]; simp
    · rw [String.toList_ofList]
      simp only [byteLength_append, byteLength_cons, byteLength_nil, utf8Size_open, utf8Size_close]
      omega
  -- The node begins with its header, and a header with its keyword.
  · obtain ⟨_, _, _, _⟩ := hheader
    rw [String.toList_ofList, List.append_assoc]
    exact List.prefix_append _ _
  · rw [String.toList_ofList]
    simp [List.getLast?_append, List.getLast?_cons]
  · simp only
    omega
  · simp only [byteLength_append]
    omega
  · intro n hn
    simp only [List.mem_cons, List.not_mem_nil, or_false] at hn
    rcases hn with rfl | rfl | rfl
    · exact ⟨before ++ header, _, by rw [htext, List.append_assoc], by rw [byteLength_append]⟩
    · obtain ⟨front, back, hfront, hbytes⟩ := isBoundary_headerGap gap
      refine ⟨before ++ (header ++ front), back ++ '{' :: (inner ++ '}' :: after), ?_, ?_⟩
      · rw [htext, hfront]; simp
      · rw [byteLength_append, byteLength_append, hbytes]
    · exact ⟨before ++ header ++ gap, '{' :: (inner ++ '}' :: after), by rw [htext]; simp, rfl⟩

/-! ## Locating -/

/-- Where a header ends is determined by where it begins. -/
theorem HeaderAt.stop_unique {text name : List Char} {kind : TargetKind} {offset stop stop' : Nat}
    (h : HeaderAt text name kind offset stop) (h' : HeaderAt text name kind offset stop') :
    stop = stop' := by
  obtain ⟨before, header, rest, htext, hheader, _, rfl, rfl⟩ := h
  obtain ⟨before', header', rest', htext', hheader', _, hoffset, rfl⟩ := h'
  -- Both headers follow the same front, and a text has one header at its front.
  obtain ⟨-, hrest⟩ := append_inj_of_byteLength (htext.symm.trans htext') hoffset
  rw [hheader.unique hheader' hrest]

/-- No declaration, exactly when the search lists no header. -/
theorem declarations_eq_empty_iff {text name : List Char} {kinds : List TargetKind}
    (hname : ∀ c ∈ name, Launcher.isTargetChar c = true) :
    declarations text name kinds = ∅ ↔ headers text name kinds = [] := by
  rw [declarations_eq_headers hname, Set.eq_empty_iff_forall_notMem]
  simp only [Set.mem_ofPred_eq]
  rw [← List.eq_nil_iff_forall_not_mem, List.map_eq_nil_iff]

/-- With exactly one declaration the search lists its header alone. -/
theorem headers_of_declarations_eq {text name : List Char} {kinds : List TargetKind}
    {kind : TargetKind} {offset stop : Nat}
    (hname : ∀ c ∈ name, Launcher.isTargetChar c = true) (hkinds : kinds.Nodup)
    (hone : declarations text name kinds = {(kind, offset)})
    (hheader : HeaderAt text name kind offset stop) :
    headers text name kinds = [⟨kind, offset, stop⟩] := by
  have hcard := (ncard_declarations text hname hkinds).2
  rw [hone, Set.ncard_singleton] at hcard
  obtain ⟨header, hlist⟩ := List.length_eq_one_iff.1 hcard.symm
  obtain ⟨k, o, s⟩ := header
  have hmem := (mem_headers_iff hname).1 (hlist ▸ List.mem_singleton_self (⟨k, o, s⟩ : Header))
  have hdecl : (k, o) ∈ declarations text name kinds := ⟨hmem.1, hmem.2.1, s, hmem.2.2⟩
  rw [hone, Set.mem_singleton_iff, Prod.mk.injEq] at hdecl
  obtain ⟨rfl, rfl⟩ := hdecl
  have hstop : s = stop := hmem.2.2.stop_unique hheader
  rw [hlist, hstop]

/-- The order of the kinds does not matter to locating. -/
theorem locate_perm (document : Document) (name : String) {kinds kinds' : List TargetKind}
    (h : kinds'.Perm kinds) : document.locate name kinds' = document.locate name kinds := by
  have hperm : (headers document.text.toList name.toList kinds').Perm
      (headers document.text.toList name.toList kinds) := h.flatMap_right _
  rw [Document.locate, Document.locate]
  cases hlist : headers document.text.toList name.toList kinds with
  | nil =>
    rw [hlist] at hperm
    rw [hperm.eq_nil]
  | cons a rest =>
    rw [hlist] at hperm
    cases rest with
    | nil => rw [List.perm_singleton.1 hperm]
    | cons b rest =>
      have hlength := hperm.length_eq
      cases hlist' : headers document.text.toList name.toList kinds' with
      | nil => rw [hlist'] at hlength; exact absurd hlength (by simp)
      | cons a' rest' =>
        rw [hlist'] at hlength
        cases rest' with
        | nil => exact absurd hlength (by simp)
        | cons b' rest' => simp only [hlength]

/-- Locating is the search for declarations: none is found when there is none, several are
    ambiguous, and a single one is unterminated or gives the node of its block. The order of the
    kinds does not matter. -/
theorem locate_eq_search (document : Document) (name : String) (kinds : List TargetKind)
    (hname : Launcher.IsTargetName name.toList) (hkinds : kinds.Nodup) :
    (declarations document.text.toList name.toList kinds).Finite ∧
    (document.locate name kinds = .error (.notFound name document.path) ↔
      declarations document.text.toList name.toList kinds = ∅) ∧
    (∀ count, document.locate name kinds = .error (.ambiguous name document.path count) ↔
      2 ≤ (declarations document.text.toList name.toList kinds).ncard ∧
        count = (declarations document.text.toList name.toList kinds).ncard) ∧
    (∀ kind offset stop,
      declarations document.text.toList name.toList kinds = {(kind, offset)} →
      HeaderAt document.text.toList name.toList kind offset stop →
      (document.locate name kinds = .error (.unterminatedScope name document.path) ↔
        balancedBlock (document.text.toList.zip (classify document.text.toList)) stop = none) ∧
      ∀ opening closing,
        balancedBlock (document.text.toList.zip (classify document.text.toList)) stop =
          some (opening, closing) →
        ∃ node, document.locate name kinds = .ok node ∧ node.name = name ∧
          LocatedAt document.text.toList kind offset stop opening closing node) ∧
    ∀ kinds', kinds'.Perm kinds → document.locate name kinds' = document.locate name kinds := by
  have hchars := hname.2
  obtain ⟨hfinite, hcard⟩ := ncard_declarations document.text.toList hchars hkinds
  refine ⟨hfinite, ?_, fun count => ?_, fun kind offset stop hone hheader => ?_,
    fun kinds' hperm => locate_perm document name hperm⟩
  · rw [declarations_eq_empty_iff hchars, locate_eq_notFound_iff]
  -- The number of declarations is the length of the list that the answer depends on.
  · rw [hcard, Document.locate]
    cases headers document.text.toList name.toList kinds with
    | nil => simp
    | cons header rest =>
      cases rest with
      | nil => cases h : nodeAt? document.text.toList name header <;> simp [h]
      | cons _ _ => simp [eq_comm]
  · have hlist := headers_of_declarations_eq hchars hkinds hone hheader
    constructor
    · rw [Document.locate]
      simp only [hlist]
      cases hblock : balancedBlock (document.text.toList.zip (classify document.text.toList))
          stop with
      | none => simp [nodeAt?, hblock]
      | some block => simp [nodeAt?, hblock]
    · intro opening closing hblock
      obtain ⟨node, hnode, hnodename, hlocated⟩ := nodeAt?_locatedAt hheader hblock
      refine ⟨node, ?_, hnodename, hlocated⟩
      rw [Document.locate]
      simp only [hlist, hnode]

/-- A name declared as both kinds, once in a comment, has two declarations. -/
theorem locate_eq_search_both_kinds :
    Launcher.IsTargetName "Foo".toList ∧ TargetKind.all.Nodup ∧
    (declarations "Library('Foo') // Library('Foo')\nObjectList( \"Foo\" )".toList "Foo".toList
      TargetKind.all).ncard = 2 := by
  have hname : Launcher.IsTargetName "Foo".toList := by decide
  have hkinds : TargetKind.all.Nodup := by decide
  have h := locate_eq_search
    ⟨⟨"a.bff"⟩, "Library('Foo') // Library('Foo')\nObjectList( \"Foo\" )"⟩ "Foo" TargetKind.all
    hname hkinds
  exact ⟨hname, hkinds, ((h.2.2.1 2).1 (by decide +kernel)).2.symm⟩

end SoloBuild.Description
