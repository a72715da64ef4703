import SoloBuild.Proofs.BlockSearch
import SoloBuild.Proofs.ByteRegions
import SoloBuild.Proofs.LocateCorrect

/-!
# Blocks by the counts of their braces

The search for a block keeps a count of the braces that are open, and reads characters. Both can be
told apart from it: the count is the number of opening braces less the number of closing ones, and
whatever is not ASCII is no brace, so only bytes matter. What the search finds is then a statement
about two numbers: the block ends at the first byte up to which as many braces close as open.

The bytes may have any regions here, as long as there is one for each of them.

## Key results

- `depthAfter_eq_some_iff`: the count is the difference of the two numbers
- `Spelled.balancedBlock_eq_some_iff`: the search for a block, byte by byte
- `matchBraces_ne_unopened`: no brace closes where none is open
- `cellsOfBytes_classifyBytes`: what is read byte by byte is what is read character by character
- `balancedBlock_bytes_iff`: the block by the counts of its braces
-/

namespace SoloBuild.Description

/-! ## The count of the search -/

/-- How many braces in code open. -/
def openings (cells : List Cell) : Nat :=
  cells.count ('{', .code)

/-- How many braces in code close. -/
def closings (cells : List Cell) : Nat :=
  cells.count ('}', .code)

@[simp] theorem openings_nil : openings [] = 0 := rfl

@[simp] theorem closings_nil : closings [] = 0 := rfl

@[simp] theorem openings_append (xs ys : List Cell) :
    openings (xs ++ ys) = openings xs + openings ys :=
  List.count_append

@[simp] theorem closings_append (xs ys : List Cell) :
    closings (xs ++ ys) = closings xs + closings ys :=
  List.count_append

theorem openings_cons (cell : Cell) (cells : List Cell) :
    openings (cell :: cells) = openings cells + if cell = ('{', .code) then 1 else 0 := by
  simp only [openings, List.count_cons, beq_iff_eq]

theorem closings_cons (cell : Cell) (cells : List Cell) :
    closings (cell :: cells) = closings cells + if cell = ('}', .code) then 1 else 0 := by
  simp only [closings, List.count_cons, beq_iff_eq]

@[simp] theorem openings_open (cells : List Cell) :
    openings (('{', .code) :: cells) = openings cells + 1 := by
  simp [openings_cons]

@[simp] theorem closings_open (cells : List Cell) :
    closings (('{', .code) :: cells) = closings cells := by
  simp [closings_cons]

@[simp] theorem openings_close (cells : List Cell) :
    openings (('}', .code) :: cells) = openings cells := by
  simp [openings_cons]

@[simp] theorem closings_close (cells : List Cell) :
    closings (('}', .code) :: cells) = closings cells + 1 := by
  simp [closings_cons]

/-- The count of the search is the difference of the two numbers. The last open brace is not closed
on the way, so no front has as many closing braces as there are braces to close. -/
theorem depthAfter_eq_some_iff {depth final : Nat} {cells : List Cell} (hdepth : 0 < depth) :
    depthAfter depth cells = some final ↔
      (∀ front, front <+: cells → closings front < depth + openings front) ∧
        final + closings cells = depth + openings cells := by
  induction cells generalizing depth with
  | nil =>
    simp only [depthAfter, Option.some.injEq, List.prefix_nil, forall_eq, openings_nil,
      closings_nil]
    omega
  | cons cell cells ih =>
    -- A front is empty, or it is this cell with a front of the others.
    have hfronts : ∀ p : List Cell → Prop, (∀ front, front <+: cell :: cells → p front) ↔
        p [] ∧ ∀ front, front <+: cells → p (cell :: front) := by
      intro p
      simp only [List.prefix_cons_iff]
      constructor
      · intro h
        exact ⟨h [] (.inl rfl), fun front hfront => h _ (.inr ⟨front, rfl, hfront⟩)⟩
      · rintro ⟨hnil, hcons⟩ front (rfl | ⟨rest, rfl, hrest⟩)
        · exact hnil
        · exact hcons rest hrest
    rw [hfronts]
    obtain ⟨c, region⟩ := cell
    by_cases hopen : region = .code ∧ c = '{'
    · obtain ⟨rfl, rfl⟩ := hopen
      have hstep : depthAfter depth (('{', .code) :: cells) = depthAfter (depth + 1) cells := by
        simp [depthAfter]
      rw [hstep, ih (by omega)]
      simp only [openings_open, closings_open, openings_nil, closings_nil, Nat.add_right_comm,
        ← Nat.add_assoc, Nat.add_zero, hdepth, true_and]
    · by_cases hclose : region = .code ∧ c = '}'
      · obtain ⟨rfl, rfl⟩ := hclose
        simp only [openings_close, closings_close, openings_nil, closings_nil, Nat.add_zero, hdepth,
          true_and]
        obtain rfl | ⟨more, rfl⟩ : depth = 1 ∨ ∃ more, depth = more + 2 := by
          rcases Nat.lt_or_ge depth 2 with hlt | hge
          · exact .inl (by omega)
          · exact .inr ⟨depth - 2, by omega⟩
        · -- The last open brace is closed, and the front that ends here has closed as many.
          have hstep : depthAfter 1 (('}', .code) :: cells) = none := by simp [depthAfter]
          rw [hstep]
          simp only [reduceCtorEq, false_iff, not_and]
          intro h
          have := h [] List.nil_prefix
          simp at this
        · have hstep : depthAfter (more + 2) (('}', .code) :: cells) =
              depthAfter (more + 1) cells := by
            simp [depthAfter]
          rw [hstep, ih (by omega)]
          refine and_congr (forall_congr' fun front => imp_congr_right fun _ => ?_) ?_
          · omega
          · omega
      · have hbrace : ∀ d, (region = .code ∧ c = d → False) → (c, region) ≠ (d, .code) :=
          fun d hd heq => hd ⟨(Prod.mk.inj heq).2, (Prod.mk.inj heq).1⟩
        have hstep : depthAfter depth ((c, region) :: cells) = depthAfter depth cells := by
          simp only [depthAfter, hopen, hclose, if_false]
        rw [hstep, ih hdepth]
        simp only [openings_cons, closings_cons, hbrace _ hopen, hbrace _ hclose, if_false,
          Nat.add_zero, openings_nil, closings_nil, hdepth, true_and]

/-- No brace closes where none is open: the count of the search begins with the brace that opened
the block, and the search ends when that is closed. -/
theorem matchBraces_ne_unopened {depth : Nat} (hdepth : 0 < depth) (offset : Nat)
    (cells : List Cell) : matchBraces depth offset cells ≠ .unopened := by
  induction cells generalizing depth offset with
  | nil => simp [matchBraces]
  | cons cell cells ih =>
    obtain ⟨c, region⟩ := cell
    unfold matchBraces
    split
    · exact ih (by omega) _
    · split
      · split
        · omega
        · intro heq
          cases heq
        · exact ih (by omega) _
      · exact ih hdepth _

/-! ## Cells and bytes -/

/-- The bytes of some cells, each with a region of its own. A character has the region of its first
byte. -/
inductive Spelled : List Cell → List Cell → Prop
  | nil : Spelled [] []
  | cons {c : Char} {region : Region} {regions : List Region} {cells bytes : List Cell}
      (length : (region :: regions).length = c.utf8Size) (rest : Spelled cells bytes) :
      Spelled ((c, region) :: cells) ((charBytes c).zip (region :: regions) ++ bytes)

namespace Spelled

variable {cell : Cell} {cells xs ys bytes bs ds : List Cell}

/-- The bytes of a cell are the cell itself when its character is ASCII, and otherwise none of them
is ASCII. -/
theorem cons_cases (h : Spelled (cell :: cells) bytes) :
    ∃ front rest, bytes = front ++ rest ∧ Spelled [cell] front ∧ Spelled cells rest ∧
      (front = [cell] ∨ IsHigh cell.1 ∧ ∀ byte ∈ front, IsHigh byte.1) := by
  cases h with
  | @cons c region regions _ rest length h =>
    have hcell : Spelled [(c, region)] ((charBytes c).zip (region :: regions) ++ []) :=
      .cons length .nil
    rw [List.append_nil] at hcell
    refine ⟨_, rest, rfl, hcell, h, ?_⟩
    by_cases hc : IsHigh c
    · refine .inr ⟨hc, fun byte hbyte => ?_⟩
      exact isHigh_of_mem_charBytes hc (List.of_mem_zip hbyte).1
    · have hlength : (charBytes c).length = 1 := by rw [charBytes_of_not_isHigh hc]; rfl
      rw [length_charBytes, ← length, List.length_cons, Nat.add_eq_right] at hlength
      rw [List.eq_nil_of_length_eq_zero hlength, charBytes_of_not_isHigh hc]
      exact .inl rfl

/-- An ASCII character is one byte. -/
theorem cons_ascii (h : Spelled (cell :: cells) bytes) (hcell : ¬ IsHigh cell.1) :
    ∃ rest, bytes = cell :: rest ∧ Spelled cells rest := by
  obtain ⟨front, rest, rfl, -, hrest, rfl | ⟨hhigh, -⟩⟩ := h.cons_cases
  · exact ⟨rest, rfl, hrest⟩
  · exact absurd hhigh hcell

theorem append (hx : Spelled xs bs) (hy : Spelled ys ds) : Spelled (xs ++ ys) (bs ++ ds) := by
  induction hx with
  | nil => exact hy
  | cons length _ ih =>
    rw [List.append_assoc]
    exact .cons length ih

/-- Where the cells are cut, the bytes are. -/
theorem split (h : Spelled (xs ++ ys) bytes) :
    ∃ bs ds, bytes = bs ++ ds ∧ Spelled xs bs ∧ Spelled ys ds := by
  induction xs generalizing bytes with
  | nil => exact ⟨[], bytes, rfl, .nil, h⟩
  | cons cell xs ih =>
    cases h with
    | cons length h =>
      obtain ⟨bs, ds, rfl, hx, hy⟩ := ih h
      exact ⟨_, ds, (List.append_assoc ..).symm, .cons length hx, hy⟩

/-- Where an ASCII character stands among the bytes, it stands among the cells. -/
theorem exists_of_ascii (h : Spelled cells (bs ++ cell :: ds)) (hcell : ¬ IsHigh cell.1) :
    ∃ xs ys, cells = xs ++ cell :: ys ∧ Spelled xs bs ∧ Spelled ys ds := by
  induction cells generalizing bs with
  | nil =>
    generalize hbytes : bs ++ cell :: ds = bytes at h
    cases h
    simp at hbytes
  | cons head cells ih =>
    obtain ⟨front, rest, hbytes, hhead, hrest, hfront⟩ := h.cons_cases
    by_cases hmem : cell ∈ front
    · -- Only the first cell itself can be an ASCII character among its bytes.
      rcases hfront with rfl | ⟨-, hhigh⟩
      · obtain rfl := List.mem_singleton.1 hmem
        cases bs with
        | nil =>
          obtain rfl := (List.cons.inj hbytes).2
          exact ⟨[], cells, rfl, .nil, hrest⟩
        | cons b bs =>
          obtain ⟨rfl, rfl⟩ := List.cons.inj hbytes
          obtain ⟨xs, ys, rfl, hx, hy⟩ := ih hrest
          exact ⟨b :: xs, ys, rfl, hhead.append hx, hy⟩
      · exact absurd (hhigh cell hmem) hcell
    · obtain ⟨more, rfl, rfl⟩ := split_of_not_mem hmem hbytes.symm
      obtain ⟨xs, ys, rfl, hx, hy⟩ := ih hrest
      exact ⟨head :: xs, ys, rfl, hhead.append hx, hy⟩

/-- There are as many bytes as the characters take. -/
theorem length_eq (h : Spelled cells bytes) : bytes.length = cellBytes cells := by
  induction h with
  | nil => rfl
  | cons length _ ih =>
    rw [List.length_append, List.length_zip, length_charBytes, length, Nat.min_self, ih,
      cellBytes_cons]

/-- The count of the search is the same over the bytes. -/
theorem depthAfter_eq (h : Spelled cells bytes) (depth : Nat) :
    depthAfter depth bytes = depthAfter depth cells := by
  induction cells generalizing bytes depth with
  | nil => cases h; rfl
  | cons cell cells ih =>
    obtain ⟨front, rest, rfl, -, hrest, hfront⟩ := h.cons_cases
    have hcell : depthAfter depth front = depthAfter depth [cell] := by
      rcases hfront with rfl | ⟨hcell, hhigh⟩
      · rfl
      · -- Neither the character nor one of its bytes is a brace.
        have hbrace : ∀ byte : Cell, IsHigh byte.1 → notBrace byte := by
          intro byte hbyte _
          have hopen : ¬ IsHigh '{' := by decide
          have hclose : ¬ IsHigh '}' := by decide
          exact ⟨fun heq => hopen (heq ▸ hbyte), fun heq => hclose (heq ▸ hbyte)⟩
        rw [depthAfter_of_notBrace fun byte hbyte => hbrace byte (hhigh byte hbyte),
          depthAfter_cons_of_notBrace (hbrace cell hcell), depthAfter]
    have hcons : cell :: cells = [cell] ++ cells := rfl
    rw [hcons, depthAfter_append, depthAfter_append, hcell]
    congr 1
    funext d
    exact ih hrest d

/-- The search for a block, byte by byte. -/
theorem balancedBlock_eq_some_iff {start opening closing : Nat} (h : Spelled cells bytes) :
    balancedBlock cells start = some (opening, closing) ↔
      ∃ xs ys zs, bytes = xs ++ ('{', .code) :: (ys ++ ('}', .code) :: zs) ∧
        (∀ us vs, xs = us ++ ('{', .code) :: vs → us.length < start) ∧
        depthAfter 1 ys = some 1 ∧ start ≤ opening ∧ opening = xs.length ∧
        closing = opening + 1 + ys.length := by
  have hopen : ¬ IsHigh (('{', Region.code) : Cell).1 := by decide
  have hclose : ¬ IsHigh (('}', Region.code) : Cell).1 := by decide
  rw [Description.balancedBlock_eq_some_iff]
  constructor
  · rintro ⟨xs, ys, zs, rfl, hxs, hys, hstart, rfl, rfl⟩
    obtain ⟨bx, _, rfl, hbx, hblock⟩ := h.split
    obtain ⟨_, rfl, hinner⟩ := hblock.cons_ascii hopen
    obtain ⟨by', _, rfl, hby, hend⟩ := hinner.split
    obtain ⟨bz, rfl, -⟩ := hend.cons_ascii hclose
    refine ⟨bx, by', bz, rfl, ?_, ?_, hstart, hbx.length_eq.symm, by rw [hby.length_eq]⟩
    · rintro us vs rfl
      obtain ⟨as, _, rfl, has, -⟩ := hbx.exists_of_ascii hopen
      rw [has.length_eq]
      exact hxs as _ rfl
    · rw [hby.depthAfter_eq, hys]
  · rintro ⟨bx, by', bz, rfl, hbx, hby, hstart, rfl, rfl⟩
    obtain ⟨xs, rest, rfl, hx, hrest⟩ := h.exists_of_ascii hopen
    obtain ⟨ys, zs, rfl, hy, -⟩ := hrest.exists_of_ascii hclose
    refine ⟨xs, ys, zs, rfl, ?_, ?_, hstart, hx.length_eq, by rw [hy.length_eq]⟩
    · rintro us vs rfl
      obtain ⟨bu, _, rfl, hbu, hbrace⟩ := hx.split
      obtain ⟨rest, rfl, -⟩ := hbrace.cons_ascii hopen
      rw [← hbu.length_eq]
      exact hbx bu rest rfl
    · rw [← hy.depthAfter_eq, hby]

end Spelled

/-! ## Blocks by counting -/

/-- The byte is the first opening brace in code at or after `start`. -/
structure IsFirstOpening (bytes : List Cell) (start opening : Nat) : Prop where
  start_le : start ≤ opening
  brace : bytes[opening]? = some ('{', .code)
  first : ∀ i, start ≤ i → i < opening → bytes[i]? ≠ some ('{', .code)

/-- From one byte through another, as many braces in code close as open. -/
def IsEven (bytes : List Cell) (opening closing : Nat) : Prop :=
  closings (bytes.extract opening (closing + 1)) = openings (bytes.extract opening (closing + 1))

/-- The byte is the first one after `opening` up to which as many braces in code close as open. -/
structure IsFirstEven (bytes : List Cell) (opening closing : Nat) : Prop where
  opening_lt : opening < closing
  lt_length : closing < bytes.length
  even : IsEven bytes opening closing
  first : ∀ i, opening < i → i < closing → ¬ IsEven bytes opening i

/-- What stands at a position cuts a list there. -/
theorem exists_append_of_getElem? {α : Type} {xs : List α} {i : Nat} {x : α} (h : xs[i]? = some x) :
    ∃ front back, xs = front ++ x :: back ∧ i = front.length := by
  obtain ⟨hi, rfl⟩ := List.getElem?_eq_some_iff.1 h
  refine ⟨xs.take i, xs.drop (i + 1), ?_, ?_⟩
  · rw [List.cons_getElem_drop_succ, List.take_append_drop]
  · rw [List.length_take]
    omega

/-- What is even from an opening brace on closes one brace more than it opens after it. -/
theorem isEven_iff (xs rest : List Cell) (n : Nat) :
    IsEven (xs ++ ('{', .code) :: rest) xs.length (xs.length + n) ↔
      closings (rest.take n) = 1 + openings (rest.take n) := by
  have hextract : (xs ++ ('{', .code) :: rest).extract xs.length (xs.length + n + 1) =
      ('{', .code) :: rest.take n := by
    have hlength : xs.length + n + 1 - xs.length = n + 1 := by omega
    rw [List.extract_eq_take_drop, List.drop_left, hlength, List.take_succ_cons]
  rw [IsEven, hextract, closings_open, openings_open, Nat.add_comm 1]

/-- Fewer braces have closed than opened as long as the numbers were not equal: no single byte
closes two braces. -/
theorem closings_take_lt {rest : List Cell} {m : Nat}
    (hne : ∀ n, n ≤ m → closings (rest.take n) ≠ 1 + openings (rest.take n)) {n : Nat}
    (hn : n ≤ m) : closings (rest.take n) < 1 + openings (rest.take n) := by
  induction n with
  | zero => simp
  | succ n ih =>
    have hbefore := ih (by omega)
    have hafter := hne (n + 1) hn
    have hone : closings rest[n]?.toList ≤ 1 := by
      have hcount : closings rest[n]?.toList ≤ rest[n]?.toList.length := List.count_le_length
      have hlength : rest[n]?.toList.length ≤ 1 := by cases rest[n]? <;> simp
      omega
    rw [List.take_add_one, closings_append, openings_append] at hafter ⊢
    omega

/-- The brace that brings the numbers together is the one that the count of the search ends with. -/
theorem isFirstEven_iff {xs rest : List Cell} {closing : Nat} :
    IsFirstEven (xs ++ ('{', .code) :: rest) xs.length closing ↔
      ∃ ys zs, rest = ys ++ ('}', .code) :: zs ∧ depthAfter 1 ys = some 1 ∧
        closing = xs.length + 1 + ys.length := by
  constructor
  · intro h
    obtain ⟨m, rfl⟩ : ∃ m, closing = xs.length + (m + 1) :=
      ⟨closing - xs.length - 1, by have := h.opening_lt; omega⟩
    have hm : m < rest.length := by
      have := h.lt_length
      simp only [List.length_append, List.length_cons] at this
      omega
    have hne : ∀ n, n ≤ m → closings (rest.take n) ≠ 1 + openings (rest.take n) := by
      intro n hn heven
      cases n with
      | zero => simp at heven
      | succ n =>
        exact h.first (xs.length + (n + 1)) (by omega) (by omega) ((isEven_iff xs rest _).2 heven)
    have heven := (isEven_iff xs rest _).1 h.even
    have hlast := closings_take_lt hne (Nat.le_refl m)
    -- The byte closes a brace, as before it the numbers were not equal.
    have hsplit : rest.take (m + 1) = rest.take m ++ [rest[m]] :=
      List.take_succ_eq_append_getElem hm
    rw [hsplit, closings_append, openings_append] at heven
    have hclose : rest[m] = ('}', .code) := by
      by_contra hother
      have hnone : closings [rest[m]] = 0 := by
        rw [closings_cons, if_neg hother, closings_nil]
      omega
    rw [hclose] at heven
    simp only [closings_close, openings_close, closings_nil, openings_nil] at heven
    refine ⟨rest.take m, rest.drop (m + 1), ?_, ?_, ?_⟩
    · rw [← hclose, List.cons_getElem_drop_succ, List.take_append_drop]
    · refine (depthAfter_eq_some_iff Nat.one_pos).2 ⟨fun front hfront => ?_, by omega⟩
      have hle := hfront.length_le
      rw [List.length_take] at hle
      have hfront' : front = rest.take front.length :=
        List.prefix_iff_eq_take.1 (hfront.trans (List.take_prefix m rest))
      rw [hfront']
      exact closings_take_lt hne (by omega)
    · rw [List.length_take]
      omega
  · rintro ⟨ys, zs, rfl, hys, rfl⟩
    obtain ⟨hopen, hcount⟩ := (depthAfter_eq_some_iff Nat.one_pos).1 hys
    have hclosing : xs.length + 1 + ys.length = xs.length + (ys.length + 1) := by omega
    rw [hclosing]
    constructor
    · omega
    · simp only [List.length_append, List.length_cons]
      omega
    · have htake : (ys ++ ('}', .code) :: zs).take (ys.length + 1) = ys ++ [('}', .code)] := by
        simp [List.take_append]
      rw [isEven_iff, htake]
      simp only [closings_append, openings_append, closings_close, openings_close, closings_nil,
        openings_nil]
      omega
    · intro i hlt hle heven
      obtain ⟨n, rfl⟩ : ∃ n, i = xs.length + n := ⟨i - xs.length, by omega⟩
      rw [isEven_iff, List.take_append_of_le_length (by omega)] at heven
      have := hopen (ys.take n) (List.take_prefix n ys)
      omega

/-- The search for a block by counting: it opens at the first opening brace and closes at the first
byte up to which as many braces close as open. -/
theorem Spelled.balancedBlock_iff {cells bytes : List Cell} (h : Spelled cells bytes)
    {start opening closing : Nat} :
    balancedBlock cells start = some (opening, closing) ↔
      IsFirstOpening bytes start opening ∧ IsFirstEven bytes opening closing := by
  rw [h.balancedBlock_eq_some_iff]
  constructor
  · rintro ⟨xs, ys, zs, rfl, hxs, hys, hstart, rfl, rfl⟩
    refine ⟨⟨hstart, by simp, fun i hle hlt hbrace => ?_⟩,
      isFirstEven_iff.2 ⟨ys, zs, rfl, hys, rfl⟩⟩
    rw [List.getElem?_append_left hlt] at hbrace
    obtain ⟨us, vs, rfl, rfl⟩ := exists_append_of_getElem? hbrace
    have := hxs us vs rfl
    omega
  · rintro ⟨hopening, heven⟩
    obtain ⟨xs, rest, rfl, rfl⟩ := exists_append_of_getElem? hopening.brace
    obtain ⟨ys, zs, rfl, hys, rfl⟩ := isFirstEven_iff.1 heven
    refine ⟨xs, ys, zs, rfl, ?_, hys, hopening.start_le, rfl, rfl⟩
    rintro us vs rfl
    by_contra hle
    refine hopening.first us.length (by omega) (by simp) ?_
    simp

/-! ## Texts and the regions of their bytes -/

/-- The cells of a text, given the regions of its bytes. -/
def cellsOfBytes : List Char → List Region → List Cell
  | [], _ => []
  | _, [] => []
  | c :: cs, region :: regions =>
    (c, region) :: cellsOfBytes cs ((region :: regions).drop c.utf8Size)

/-- The bytes of a text, each with its region, spell the cells of the text. -/
theorem spelled_cellsOfBytes {text : List Char} {regions : List Region}
    (hlength : regions.length = (textBytes text).length) :
    Spelled (cellsOfBytes text regions) ((textBytes text).zip regions) := by
  induction text generalizing regions with
  | nil =>
    have hnil : (textBytes []).zip regions = [] := rfl
    rw [hnil, cellsOfBytes]
    exact .nil
  | cons c cs ih =>
    have hpos := c.utf8Size_pos
    rw [textBytes_cons, List.length_append, length_charBytes] at hlength
    obtain ⟨front, rest, rfl, hfront⟩ :
        ∃ front rest, regions = front ++ rest ∧ front.length = c.utf8Size := by
      refine ⟨regions.take c.utf8Size, regions.drop c.utf8Size, by simp, ?_⟩
      rw [List.length_take]
      omega
    have hrest : rest.length = (textBytes cs).length := by
      rw [List.length_append, hfront] at hlength
      omega
    have hzip : (textBytes (c :: cs)).zip (front ++ rest) =
        (charBytes c).zip front ++ (textBytes cs).zip rest := by
      rw [textBytes_cons, List.zip_append (by rw [length_charBytes, hfront])]
    cases front with
    | nil =>
      rw [List.length_nil] at hfront
      omega
    | cons region regions =>
      have hdrop : (region :: (regions ++ rest)).drop c.utf8Size = rest := by
        rw [← hfront, ← List.cons_append, List.drop_left]
      rw [hzip, List.cons_append, cellsOfBytes, hdrop]
      exact .cons hfront (ih hrest)

/-- A text classified byte by byte has the cells it has classified character by character. -/
theorem cellsOfBytes_classifyBytes (text : List Char) :
    cellsOfBytes text (classifyBytes text) = text.zip (classify text) := by
  have hcells : ∀ cells : List Cell,
      cellsOfBytes (cells.map Prod.fst) (regionBytes cells) = cells := by
    intro cells
    induction cells with
    | nil => rfl
    | cons cell cells ih =>
      obtain ⟨c, region⟩ := cell
      obtain ⟨n, hn⟩ := Nat.exists_eq_succ_of_ne_zero c.utf8Size_pos.ne'
      have hdrop : (region :: (List.replicate n region ++ regionBytes cells)).drop c.utf8Size =
          regionBytes cells := by
        rw [hn, List.drop_succ_cons, List.drop_left' List.length_replicate]
      rw [regionBytes_cons, hn, List.replicate_succ, List.map_cons, List.cons_append, cellsOfBytes,
        hdrop, ih]
  rw [classifyBytes_eq_regionBytes]
  have h := hcells (cellsFrom none .start text)
  rwa [map_fst_cellsFrom] at h

/-- There is only one first opening brace. -/
theorem IsFirstOpening.unique {bytes : List Cell} {start opening opening' : Nat}
    (h : IsFirstOpening bytes start opening) (h' : IsFirstOpening bytes start opening') :
    opening = opening' := by
  have hle : ¬ opening < opening' := fun hlt => h'.first opening h.start_le hlt h.brace
  have hge : ¬ opening' < opening := fun hlt => h.first opening' h'.start_le hlt h'.brace
  omega

/-- The block of a text whose bytes have any regions. It opens at the first opening brace in code
at or after the start, and closes at the first byte after it up to which as many braces in code
close as open. There is none when there is no such brace or no such byte. And no brace is met that
would close one more than is open. -/
theorem balancedBlock_bytes_iff (text : List Char) (regions : List Region) (start : Nat)
    (hlength : regions.length = (textBytes text).length) :
    let cells := cellsOfBytes text regions
    let bytes := (textBytes text).zip regions
    (∀ opening closing, balancedBlock cells start = some (opening, closing) ↔
        IsFirstOpening bytes start opening ∧ IsFirstEven bytes opening closing) ∧
      (balancedBlock cells start = none ↔
        (¬ ∃ opening, IsFirstOpening bytes start opening) ∨
          ∃ opening, IsFirstOpening bytes start opening ∧
            ¬ ∃ closing, IsFirstEven bytes opening closing) ∧
      ∀ before after offset, cells = before ++ ('{', .code) :: after →
        matchBraces 1 offset after ≠ .unopened := by
  intro cells bytes
  have hsome : ∀ opening closing, balancedBlock cells start = some (opening, closing) ↔
      IsFirstOpening bytes start opening ∧ IsFirstEven bytes opening closing :=
    fun _ _ => (spelled_cellsOfBytes hlength).balancedBlock_iff
  refine ⟨hsome, ?_, fun _ after offset _ => matchBraces_ne_unopened Nat.one_pos offset after⟩
  constructor
  · intro hnone
    by_cases hopening : ∃ opening, IsFirstOpening bytes start opening
    · obtain ⟨opening, hfirst⟩ := hopening
      refine .inr ⟨opening, hfirst, fun ⟨closing, heven⟩ => ?_⟩
      have hblock := (hsome opening closing).2 ⟨hfirst, heven⟩
      rw [hnone] at hblock
      cases hblock
    · exact .inl hopening
  · intro hmissing
    cases hblock : balancedBlock cells start with
    | none => rfl
    | some block =>
      exfalso
      obtain ⟨hfirst, heven⟩ := (hsome block.1 block.2).1 hblock
      rcases hmissing with hopening | ⟨opening, hfirst', hclosing⟩
      · exact hopening ⟨block.1, hfirst⟩
      · rw [hfirst'.unique hfirst] at hclosing
        exact hclosing ⟨block.2, heven⟩

/-- A brace in a literal is none, and neither is the second byte of a character before the block. -/
theorem balancedBlock_bytes_iff_sample :
    let text := "é\x7b'\x7d'\x7b\x7d\x7d".toList
    (classifyBytes text).length = (textBytes text).length ∧
      IsFirstOpening ((textBytes text).zip (classifyBytes text)) 0 2 ∧
        IsFirstEven ((textBytes text).zip (classifyBytes text)) 2 8 := by
  intro text
  have hlength : (classifyBytes text).length = (textBytes text).length := by decide +kernel
  have hblock : balancedBlock (cellsOfBytes text (classifyBytes text)) 0 = some (2, 8) := by
    decide +kernel
  obtain ⟨hsome, -, -⟩ := balancedBlock_bytes_iff text (classifyBytes text) 0 hlength
  exact ⟨hlength, (hsome 2 8).1 hblock⟩

end SoloBuild.Description
