import SoloBuild.Proofs.RegionReading
import SoloBuild.Text.Bytes

/-!
# What the search for a block finds

The search for a block skips to an opening brace and counts depth from there. Here the count is a
function of its own, which composes over pieces, and the search is described by the pieces it cuts
a description into: what is before the block, what is inside it, and what follows it.

## Key results

- `matchBraces_append`: a piece that does not close the block only moves the count
- `matchBraces_eq_closed_iff`: the closing brace is the first one met at depth one
- `blockFrom_eq_some_iff` / `balancedBlock_eq_some_iff`: the search by the pieces it leaves
-/

namespace SoloBuild.Description

open Text

/-- The number of bytes of the characters of some cells. -/
def cellBytes (cells : List Cell) : Nat :=
  byteLength (cells.map Prod.fst)

theorem utf8Size_open : ('{' : Char).utf8Size = 1 := rfl

theorem utf8Size_close : ('}' : Char).utf8Size = 1 := rfl

@[simp] theorem cellBytes_nil : cellBytes [] = 0 := rfl

@[simp] theorem cellBytes_cons (cell : Cell) (cells : List Cell) :
    cellBytes (cell :: cells) = cell.1.utf8Size + cellBytes cells := rfl

@[simp] theorem cellBytes_append (xs ys : List Cell) :
    cellBytes (xs ++ ys) = cellBytes xs + cellBytes ys := by
  simp [cellBytes]

/-- How many braces are open after some cells when `depth` are open before them, or nothing when
    the last of them is closed on the way. -/
def depthAfter : (depth : Nat) → List Cell → Option Nat
  | depth, [] => some depth
  | depth, (c, region) :: cells =>
    if region = .code ∧ c = '{' then depthAfter (depth + 1) cells
    else if region = .code ∧ c = '}' then
      match depth with
      | 0 | 1 => none
      | depth + 2 => depthAfter (depth + 1) cells
    else depthAfter depth cells

/-- A cell is no brace in code. -/
def notBrace (cell : Cell) : Prop :=
  cell.2 = .code → cell.1 ≠ '{' ∧ cell.1 ≠ '}'

theorem depthAfter_cons_of_notBrace {cell : Cell} (h : notBrace cell) (depth : Nat)
    (cells : List Cell) : depthAfter depth (cell :: cells) = depthAfter depth cells := by
  obtain ⟨c, region⟩ := cell
  have hopen : ¬(region = .code ∧ c = '{') := fun ⟨hr, hc⟩ => (h hr).1 hc
  have hclose : ¬(region = .code ∧ c = '}') := fun ⟨hr, hc⟩ => (h hr).2 hc
  simp only [depthAfter, hopen, hclose, if_false]

/-- Without braces in code the depth stays. -/
theorem depthAfter_of_notBrace {cells : List Cell} (h : ∀ cell ∈ cells, notBrace cell)
    (depth : Nat) : depthAfter depth cells = some depth := by
  induction cells with
  | nil => rfl
  | cons cell cells ih =>
    rw [depthAfter_cons_of_notBrace (h cell List.mem_cons_self)]
    exact ih fun x hx => h x (List.mem_cons_of_mem cell hx)

/-- The depth after two pieces. -/
theorem depthAfter_append (depth : Nat) (xs ys : List Cell) :
    depthAfter depth (xs ++ ys) = (depthAfter depth xs).bind fun d => depthAfter d ys := by
  induction xs generalizing depth with
  | nil => rfl
  | cons cell xs ih =>
    obtain ⟨c, region⟩ := cell
    simp only [List.cons_append, depthAfter]
    split
    · exact ih _
    · split
      · split
        · rfl
        · rfl
        · exact ih _
      · exact ih _

/-- Braces that stay open before a piece stay open after it. -/
theorem depthAfter_add {depth final : Nat} {cells : List Cell}
    (h : depthAfter depth cells = some final) (more : Nat) :
    depthAfter (depth + more) cells = some (final + more) := by
  induction cells generalizing depth with
  | nil =>
    simp only [depthAfter, Option.some.injEq] at h ⊢
    rw [h]
  | cons cell cells ih =>
    obtain ⟨c, region⟩ := cell
    simp only [depthAfter] at h ⊢
    -- Both counts take the same branch, `more` apart; only a closing brace looks at the depth.
    split at h
    · rename_i hopen
      rw [if_pos hopen, Nat.add_right_comm]
      exact ih h
    · rename_i hopen
      rw [if_neg hopen]
      split at h
      · rename_i hclose
        rw [if_pos hclose]
        match depth with
        | 0 => cases h
        | 1 => cases h
        | depth + 2 =>
          have hsucc := ih h
          rw [Nat.add_right_comm] at hsucc
          rw [Nat.add_right_comm]
          exact hsucc
      · rename_i hclose
        rw [if_neg hclose]
        exact ih h

/-- A piece that does not close the block leaves it open. -/
theorem one_le_of_depthAfter {depth final : Nat} {cells : List Cell} (hdepth : 1 ≤ depth)
    (h : depthAfter depth cells = some final) : 1 ≤ final := by
  induction cells generalizing depth with
  | nil => exact Option.some.inj h ▸ hdepth
  | cons cell cells ih =>
    obtain ⟨c, region⟩ := cell
    simp only [depthAfter] at h
    split at h
    · exact ih (by omega) h
    · split at h
      · split at h
        · cases h
        · cases h
        · exact ih (by omega) h
      · exact ih hdepth h

/-- The cells of a block, from its opening to its closing brace. -/
def blockCells (inner : List Cell) : List Cell :=
  ('{', .code) :: (inner ++ [('}', .code)])

/-- A block that fills a text opens at the first opening brace in code: no other brace has the last
    one to close it. -/
theorem block_unique {as bs xs ys : List Cell}
    (h : as ++ blockCells bs = xs ++ blockCells ys)
    (hopen : ('{', Region.code) ∉ as) (hbs : depthAfter 1 bs = some 1)
    (hys : depthAfter 1 ys = some 1) : as = xs ∧ bs = ys := by
  rw [blockCells, blockCells] at h
  rcases List.append_eq_append_iff.1 h with ⟨ws, hxs, hrest⟩ | ⟨ws, has, hrest⟩
  · cases ws with
    | nil =>
      simp only [List.nil_append, List.cons.injEq, true_and] at hrest
      exact ⟨by simpa using hxs.symm, List.append_cancel_right hrest⟩
    | cons w ws =>
      -- The brace would open inside the block and close where the block does.
      exfalso
      simp only [List.cons_append, List.cons.injEq] at hrest
      have hinner : bs = ws ++ ('{', .code) :: ys := by
        have hconcat : bs ++ [('}', .code)] = (ws ++ ('{', .code) :: ys) ++ [('}', .code)] := by
          rw [hrest.2]; simp
        exact List.append_cancel_right hconcat
      rw [hinner, depthAfter_append] at hbs
      cases hws : depthAfter 1 ws with
      | none => rw [hws] at hbs; cases hbs
      | some d =>
        have hmore := depthAfter_add hys d
        have hpos := one_le_of_depthAfter (Nat.le_refl 1) hws
        rw [hws, Option.bind_some] at hbs
        simp only [depthAfter, and_self, if_true] at hbs
        rw [Nat.add_comm d 1, hmore, Option.some.injEq] at hbs
        omega
  · cases ws with
    | nil =>
      rw [List.append_nil] at has
      rw [has] at h
      simp only [List.append_cancel_left_eq, List.cons.injEq, true_and] at h
      exact ⟨has, List.append_cancel_right h⟩
    | cons w ws =>
      simp only [List.cons_append, List.cons.injEq] at hrest
      rw [has, hrest.1] at hopen
      exact absurd (List.mem_append_right xs List.mem_cons_self) hopen

/-- A piece that does not close the block only moves the count. -/
theorem matchBraces_append {depth final : Nat} {xs : List Cell}
    (h : depthAfter depth xs = some final) (offset : Nat) (ys : List Cell) :
    matchBraces depth offset (xs ++ ys) = matchBraces final (offset + cellBytes xs) ys := by
  induction xs generalizing depth offset with
  | nil =>
    simp only [depthAfter, Option.some.injEq] at h
    simp [h]
  | cons cell xs ih =>
    obtain ⟨c, region⟩ := cell
    have hbytes : offset + cellBytes ((c, region) :: xs) = offset + c.utf8Size + cellBytes xs := by
      simp [Nat.add_assoc]
    rw [hbytes]
    simp only [List.cons_append, matchBraces, depthAfter] at h ⊢
    split at h
    · rename_i hopen
      rw [if_pos hopen]
      exact ih h _
    · rename_i hopen
      rw [if_neg hopen]
      split at h
      · rename_i hclose
        rw [if_pos hclose]
        split at h
        · cases h
        · cases h
        · exact ih h _
      · rename_i hclose
        rw [if_neg hclose]
        exact ih h _

/-- At depth one a closing brace in code closes the block. -/
theorem matchBraces_close (offset : Nat) (cells : List Cell) :
    matchBraces 1 offset (('}', .code) :: cells) = .closed offset := by
  simp [matchBraces]

/-- The closing brace is the first brace in code that is met at depth one. -/
theorem matchBraces_eq_closed_iff {depth offset close : Nat} {cells : List Cell}
    (hdepth : 1 ≤ depth) :
    matchBraces depth offset cells = .closed close ↔
      ∃ xs ys, cells = xs ++ ('}', .code) :: ys ∧ depthAfter depth xs = some 1 ∧
        close = offset + cellBytes xs := by
  constructor
  · intro h
    induction cells generalizing depth offset with
    | nil => cases h
    | cons cell cells ih =>
      obtain ⟨c, region⟩ := cell
      -- A cell that leaves `final` braces open comes before the pieces found after it.
      have hmore : ∀ final, 1 ≤ final → depthAfter depth [(c, region)] = some final →
          matchBraces final (offset + c.utf8Size) cells = .closed close →
          ∃ xs ys, (c, region) :: cells = xs ++ ('}', .code) :: ys ∧
            depthAfter depth xs = some 1 ∧ close = offset + cellBytes xs := by
        intro final hfinal hcell hrest
        obtain ⟨xs, ys, rfl, hxs, hclose⟩ := ih hfinal hrest
        refine ⟨(c, region) :: xs, ys, rfl, ?_, ?_⟩
        · rw [← List.singleton_append, depthAfter_append, hcell]
          exact hxs
        · rw [hclose, cellBytes_cons, Nat.add_assoc]
      simp only [matchBraces] at h
      split at h
      · rename_i hopen
        exact hmore (depth + 1) (by omega) (by simp [depthAfter, hopen]) h
      · rename_i hopen
        split at h
        · rename_i hbrace
          match depth, hdepth with
          | 1, _ =>
            simp only [BraceMatch.closed.injEq] at h
            exact ⟨[], cells, by rw [hbrace.1, hbrace.2]; rfl, rfl, by simp [h]⟩
          | depth + 2, _ =>
            exact hmore (depth + 1) (by omega) (by simp [depthAfter, hbrace]) h
        · rename_i hbrace
          exact hmore depth hdepth (by simp [depthAfter, hopen, hbrace]) h
  · rintro ⟨xs, ys, rfl, hxs, rfl⟩
    rw [matchBraces_append hxs, matchBraces_close]

/-- A search skips what lies before its start. -/
theorem blockFrom_append {start offset : Nat} {xs : List Cell}
    (h : ∀ us vs, xs = us ++ ('{', .code) :: vs → offset + cellBytes us < start)
    (ys : List Cell) :
    blockFrom start offset (xs ++ ys) = blockFrom start (offset + cellBytes xs) ys := by
  induction xs generalizing offset with
  | nil => rfl
  | cons cell xs ih =>
    obtain ⟨c, region⟩ := cell
    -- The hypothesis at an empty front: a brace here lies before the start.
    have hnot : ¬(start ≤ offset ∧ region = .code ∧ c = '{') := by
      rintro ⟨hle, rfl, rfl⟩
      have := h [] xs rfl
      simp only [cellBytes_nil] at this
      omega
    rw [List.cons_append, blockFrom, if_neg hnot, cellBytes_cons, ← Nat.add_assoc]
    refine ih fun us vs hus => ?_
    have := h ((c, region) :: us) vs (by rw [hus]; rfl)
    rwa [cellBytes_cons, ← Nat.add_assoc] at this

/-- The search by the pieces it leaves: the block opens at the first opening brace in code at or
    after the start, and closes where its depth comes back to zero. -/
theorem blockFrom_eq_some_iff {start offset opening closing : Nat} {cells : List Cell} :
    blockFrom start offset cells = some (opening, closing) ↔
      ∃ xs ys zs, cells = xs ++ ('{', .code) :: (ys ++ ('}', .code) :: zs) ∧
        (∀ us vs, xs = us ++ ('{', .code) :: vs → offset + cellBytes us < start) ∧
        depthAfter 1 ys = some 1 ∧ start ≤ opening ∧ opening = offset + cellBytes xs ∧
        closing = opening + 1 + cellBytes ys := by
  constructor
  · intro h
    induction cells generalizing offset with
    | nil => cases h
    | cons cell cells ih =>
      obtain ⟨c, region⟩ := cell
      rw [blockFrom] at h
      split at h
      · rename_i hopen
        obtain ⟨hstart, rfl, rfl⟩ := hopen
        split at h
        · rename_i close hmatch
          simp only [Option.some.injEq, Prod.mk.injEq] at h
          obtain ⟨rfl, rfl⟩ := h
          obtain ⟨ys, zs, rfl, hys, hclose⟩ := (matchBraces_eq_closed_iff (by omega)).1 hmatch
          exact ⟨[], ys, zs, rfl, by simp, hys, hstart, by simp, hclose⟩
        · cases h
      · rename_i hopen
        obtain ⟨xs, ys, zs, rfl, hxs, hys, hstart, hopening, hclosing⟩ := ih h
        refine ⟨(c, region) :: xs, ys, zs, rfl, ?_, hys, hstart, ?_, hclosing⟩
        -- A brace in the longer front is this cell, or one of the front found behind it.
        · intro us vs hus
          cases us with
          | nil =>
            simp only [List.nil_append, List.cons.injEq, Prod.mk.injEq] at hus
            obtain ⟨⟨rfl, rfl⟩, rfl⟩ := hus
            simp only [and_true, Nat.not_le] at hopen
            simpa using hopen
          | cons u us =>
            simp only [List.cons_append, List.cons.injEq] at hus
            obtain ⟨rfl, hus⟩ := hus
            have := hxs us vs hus
            rw [cellBytes_cons]
            simp only
            omega
        · rw [hopening, cellBytes_cons, Nat.add_assoc]
  · rintro ⟨xs, ys, zs, rfl, hxs, hys, hstart, rfl, rfl⟩
    rw [blockFrom_append hxs, blockFrom, if_pos ⟨hstart, rfl, rfl⟩, matchBraces_append hys,
      matchBraces_close]
    rfl

/-- The block of a description by the pieces it leaves. -/
theorem balancedBlock_eq_some_iff {start opening closing : Nat} {cells : List Cell} :
    balancedBlock cells start = some (opening, closing) ↔
      ∃ xs ys zs, cells = xs ++ ('{', .code) :: (ys ++ ('}', .code) :: zs) ∧
        (∀ us vs, xs = us ++ ('{', .code) :: vs → cellBytes us < start) ∧
        depthAfter 1 ys = some 1 ∧ start ≤ opening ∧ opening = cellBytes xs ∧
        closing = opening + 1 + cellBytes ys := by
  rw [balancedBlock, blockFrom_eq_some_iff]
  simp only [Nat.zero_add]

end SoloBuild.Description
