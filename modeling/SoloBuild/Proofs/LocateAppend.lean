import SoloBuild.Description.Locate
import SoloBuild.Proofs.HeaderSearch

/-!
# Locating behind a front

A document that follows a front without declarations is located as it is alone, moved by the length
of the front: the front only has to leave the reader where a document begins, and no header may
begin in the front and end behind it.

## Key results

- `declarationsFrom_append`: the declarations of two pieces, when no header spans both
- `declarationsFrom_move`, `blockFrom_move`, `nodeAt?_append`: each search behind a front
- `locate_append`: locating behind a front
-/

namespace SoloBuild.Description

open Text

/-- A header that begins and ends `n` bytes later. -/
def Header.move (n : Nat) (header : Header) : Header :=
  ⟨header.kind, n + header.start, n + header.stop⟩

/-- A node that begins and ends `n` bytes later. -/
def TargetNode.move (n : Nat) (node : TargetNode) : TargetNode :=
  { node with start := n + node.start, stop := n + node.stop }

/-! ## Declarations -/

/-- The declarations of two pieces, when no header begins in the first and ends in the second. -/
theorem declarationsFrom_append {kind : TargetKind} {name : List Char} {before : Option Char}
    {offset : Nat} {xs ys : List Cell}
    (h : ∀ us c vs, xs = us ++ (c, .code) :: vs →
      headerBytes? kind.keyword.toList name (c :: (vs ++ ys).map Prod.fst) =
        headerBytes? kind.keyword.toList name (c :: vs.map Prod.fst)) :
    declarationsFrom kind name before offset (xs ++ ys) =
      declarationsFrom kind name before offset xs ++
        declarationsFrom kind name ((xs.map Prod.fst).getLast?.or before) (offset + cellBytes xs)
          ys := by
  induction xs generalizing before offset with
  | nil => rfl
  | cons cell xs ih =>
    obtain ⟨c, region⟩ := cell
    have hhead : declarationAt? kind name before offset (c, region) (xs ++ ys) =
        declarationAt? kind name before offset (c, region) xs := by
      rw [declarationAt?, declarationAt?]
      split
      · rename_i hcode
        obtain ⟨_, rfl⟩ := hcode
        rw [h [] c xs rfl]
      · rfl
    -- The character before the second piece is the last of the first, if that has any.
    have hlast : (((c, region) :: xs).map Prod.fst).getLast?.or before =
        (xs.map Prod.fst).getLast?.or (some c) := by
      rw [List.map_cons, List.getLast?_cons]
      cases (xs.map Prod.fst).getLast? <;> rfl
    have htail : ∀ us d vs, xs = us ++ (d, .code) :: vs → _ := fun us d vs hus =>
      h ((c, region) :: us) d vs (by rw [hus]; rfl)
    rw [List.cons_append, declarationsFrom, declarationsFrom, hhead, ih htail, hlast,
      cellBytes_cons, List.append_assoc, Nat.add_assoc]

/-- No header begins with a character other than the initial of its keyword. -/
theorem headerBytes?_of_ne_initial {kind : TargetKind} {c : Char} (h : c ≠ kind.initial)
    (name text : List Char) : headerBytes? kind.keyword.toList name (c :: text) = none := by
  obtain ⟨letters, hkey, _, _⟩ := kind.keyword_eq_cons
  rw [Option.eq_none_iff_forall_ne_some]
  intro n hn
  obtain ⟨_, rest, ⟨_, _, _, _⟩, heq, _⟩ := headerBytes?_eq_some_iff.1 hn
  rw [hkey, List.cons_append, List.cons_append] at heq
  exact h (List.cons.inj heq).1

/-- A piece is passed over when the initial of the keyword stands nowhere in its code. -/
theorem declarationsFrom_of_ne_initial {kind : TargetKind} {xs : List Cell}
    (h : (kind.initial, .code) ∉ xs) (name : List Char) (before : Option Char) (offset : Nat)
    (ys : List Cell) :
    declarationsFrom kind name before offset (xs ++ ys) =
      declarationsFrom kind name ((xs.map Prod.fst).getLast?.or before) (offset + cellBytes xs)
        ys := by
  have hne : ∀ us c vs, xs = us ++ (c, .code) :: vs → c ≠ kind.initial := by
    rintro us c vs rfl rfl
    exact h (List.mem_append_right us List.mem_cons_self)
  have hnone : declarationsFrom kind name before offset xs = [] := by
    rw [List.eq_nil_iff_forall_not_mem]
    intro header hheader
    obtain ⟨us, c, vs, hus, _, n, hn, _⟩ := mem_declarationsFrom_iff.1 hheader
    rw [headerBytes?_of_ne_initial (hne us c vs hus)] at hn
    cases hn
  rw [declarationsFrom_append, hnone, List.nil_append]
  intro us c vs hus
  rw [headerBytes?_of_ne_initial (hne us c vs hus), headerBytes?_of_ne_initial (hne us c vs hus)]

/-- A declaration moves with its text. -/
theorem declarationAt?_move (kind : TargetKind) (name : List Char) (before : Option Char)
    (n offset : Nat) (cell : Cell) (cells : List Cell) :
    declarationAt? kind name before (n + offset) cell cells =
      (declarationAt? kind name before offset cell cells).map (Header.move n) := by
  rw [declarationAt?, declarationAt?]
  split
  · rw [Option.map_map]
    congr 1
    funext m
    simp only [Function.comp_apply, Header.move, Nat.add_assoc]
  · rfl

/-- The declarations move with their text. -/
theorem declarationsFrom_move (kind : TargetKind) (name : List Char) (before : Option Char)
    (n offset : Nat) (cells : List Cell) :
    declarationsFrom kind name before (n + offset) cells =
      (declarationsFrom kind name before offset cells).map (Header.move n) := by
  induction cells generalizing before offset with
  | nil => rfl
  | cons cell cells ih =>
    rw [declarationsFrom, declarationsFrom, declarationAt?_move, List.map_append, Nat.add_assoc, ih]
    cases declarationAt? kind name before offset cell cells <;> rfl

/-- A text after a character that is no word character has the declarations it has alone. -/
theorem declarationsFrom_of_not_word {c : Char} (h : isWord c = false) (kind : TargetKind)
    (name : List Char) (offset : Nat) (cells : List Cell) :
    declarationsFrom kind name (some c) offset cells =
      declarationsFrom kind name none offset cells := by
  cases cells with
  | nil => rfl
  | cons cell cells =>
    have hboundary : isWordBoundary (some c) (some cell.1) = isWordBoundary none (some cell.1) := by
      simp [isWordBoundary, h]
    rw [declarationsFrom, declarationsFrom, declarationAt?, declarationAt?, hboundary]

/-! ## Blocks -/

/-- The end of a block moves with its text. -/
def BraceMatch.move (n : Nat) : BraceMatch → BraceMatch
  | .closed offset => .closed (n + offset)
  | .unclosed => .unclosed
  | .unopened => .unopened

theorem matchBraces_move (depth n offset : Nat) (cells : List Cell) :
    matchBraces depth (n + offset) cells = (matchBraces depth offset cells).move n := by
  induction cells generalizing depth offset with
  | nil => rfl
  | cons cell cells ih =>
    obtain ⟨c, region⟩ := cell
    simp only [matchBraces, Nat.add_assoc, ih]
    split
    · rfl
    · split
      · split <;> rfl
      · rfl

/-- A block moves with its text. -/
theorem blockFrom_move (n start offset : Nat) (cells : List Cell) :
    blockFrom (n + start) (n + offset) cells =
      (blockFrom start offset cells).map fun block => (n + block.1, n + block.2) := by
  induction cells generalizing offset with
  | nil => rfl
  | cons cell cells ih =>
    obtain ⟨c, region⟩ := cell
    simp only [blockFrom, Nat.add_assoc, Nat.add_le_add_iff_left, ih]
    split
    · rw [matchBraces_move 1 n (offset + c.utf8Size)]
      cases matchBraces 1 (offset + c.utf8Size) cells <;> rfl
    · rfl

/-- The block of a text behind a front. -/
theorem balancedBlock_append (xs ys : List Cell) (start : Nat) :
    balancedBlock (xs ++ ys) (cellBytes xs + start) =
      (balancedBlock ys start).map fun block =>
        (cellBytes xs + block.1, cellBytes xs + block.2) := by
  rw [balancedBlock, balancedBlock, blockFrom_append, ← blockFrom_move, Nat.zero_add, Nat.add_zero]
  rintro us vs rfl
  simp only [cellBytes_append, cellBytes_cons, utf8Size_open]
  omega

/-! ## Locating -/

/-- Nothing is located exactly when the search lists no header. -/
theorem locate_eq_notFound_iff {document : Document} {name : String} {kinds : List TargetKind} :
    document.locate name kinds = .error (.notFound name document.path) ↔
      headers document.text.toList name.toList kinds = [] := by
  rw [Document.locate]
  match headers document.text.toList name.toList kinds with
  | [] => simp
  | [header] => cases h : nodeAt? document.text.toList name header <;> simp [h]
  | _ :: _ :: _ => simp

/-- A located node is the node of the one header that the search lists. -/
theorem headers_of_locate {document : Document} {name : String} {kinds : List TargetKind}
    {node : TargetNode} (h : document.locate name kinds = .ok node) :
    ∃ header, headers document.text.toList name.toList kinds = [header] ∧
      nodeAt? document.text.toList name header = some node := by
  rw [Document.locate] at h
  match hlist : headers document.text.toList name.toList kinds with
  | [] => simp [hlist] at h
  | [header] =>
    cases hnode : nodeAt? document.text.toList name header with
    | none => simp [hlist, hnode] at h
    | some found =>
      simp only [hlist, hnode, Except.ok.injEq] at h
      exact ⟨header, rfl, by rw [hnode, h]⟩
  | _ :: _ :: _ => simp [hlist] at h

theorem exists_header_of_locate {document : Document} {name : String} {kinds : List TargetKind}
    {node : TargetNode} (h : document.locate name kinds = .ok node) :
    ∃ header ∈ headers document.text.toList name.toList kinds,
      nodeAt? document.text.toList name header = some node := by
  obtain ⟨header, hlist, hnode⟩ := headers_of_locate h
  exact ⟨header, hlist ▸ List.mem_singleton_self header, hnode⟩

/-- A node's text is the part of its document between its ends. -/
theorem text_eq_of_locate {document : Document} {name : String} {kinds : List TargetKind}
    {node : TargetNode} (h : document.locate name kinds = .ok node) :
    node.text = String.ofList (sliceBytes node.start node.stop document.text.toList) := by
  obtain ⟨_, _, hnode⟩ := exists_header_of_locate h
  obtain ⟨_, _, rfl⟩ := Option.map_eq_some_iff.1 hnode
  rfl

/-- The end of a header behind a front. -/
theorem headerEnd_append (front text : List Char) (start stop : Nat) :
    headerEnd (front ++ text) (byteLength front + start) (byteLength front + stop) =
      byteLength front + headerEnd text start stop := by
  rw [headerEnd, headerEnd, sliceBytes_append]
  split <;> simp only [Nat.add_assoc]

/-- The node of a header behind a front. -/
theorem nodeAt?_append {front text : List Char}
    (hstart : ReadState.start.after text.head? front = .start) (name : String) (header : Header) :
    nodeAt? (front ++ text) name (header.move (byteLength front)) =
      (nodeAt? text name header).map (TargetNode.move (byteLength front)) := by
  have hcells : (front ++ text).zip (classify (front ++ text)) =
      cellsFrom text.head? .start front ++ text.zip (classify text) := by
    have h := cellsFrom_append none .start front text
    rw [Option.or_none, hstart] at h
    exact h
  have hbytes : cellBytes (cellsFrom text.head? .start front) = byteLength front := by
    rw [cellBytes, map_fst_cellsFrom]
  -- The block is searched from behind the front on, where both texts have the same cells.
  have hblock := balancedBlock_append (cellsFrom text.head? .start front)
    (text.zip (classify text)) header.stop
  rw [hbytes] at hblock
  simp only [nodeAt?, Header.move, hcells, hblock, Option.map_map]
  congr 1
  funext block
  simp only [Function.comp_apply, TargetNode.move, headerEnd_append, Nat.add_assoc,
    sliceBytes_append, Nat.add_sub_add_left]

/-- Locating behind a front whose text adds no header and moves those that follow. -/
theorem locate_append (path : Path) (front text name : String) (kinds : List TargetKind)
    (hstart : ReadState.start.after text.toList.head? front.toList = .start)
    (hheaders : headers (front ++ text).toList name.toList kinds =
      (headers text.toList name.toList kinds).map (Header.move (byteLength front.toList))) :
    Document.locate ⟨path, front ++ text⟩ name kinds =
      (Document.locate ⟨path, text⟩ name kinds).map
        (TargetNode.move (byteLength front.toList)) := by
  rw [Document.locate, Document.locate]
  simp only [hheaders]
  match headers text.toList name.toList kinds with
  | [] => rfl
  | [header] =>
    rw [String.toList_append]
    simp only [List.map_cons, List.map_nil, nodeAt?_append hstart]
    cases nodeAt? text.toList name header <;> rfl
  | _ :: _ :: _ => simp [Except.map]

end SoloBuild.Description
