import SoloBuild.Text.Blank
import SoloBuild.Text.Bytes
import SoloBuild.Text.Splitting
import SoloBuild.Text.Substring
import SoloBuild.Text.WordChar

/-!
# Laws of pieces of text

Generic laws of the operations on texts that proofs about declarations rest on.

## Key results

- `isBlank_eq_false_of_isWord`: no blank is a word character
- `afterFront?_eq_some_iff`, `skipBlanks_append`: the readers by the pieces they leave
- `append_cons_inj`: a list is cut at its first item of a kind in one way only
- `dropBytes_append`, `sliceBytes_pieces`, `sliceBytes_append`: cutting behind a front
-/

namespace SoloBuild.Text

/-! ## Blanks and words -/

/-- The blanks from U+0080 on. -/
private def wideBlanks : List Nat :=
  [0x85, 0xA0, 0x1680] ++ List.range' 0x2000 11 ++ [0x2028, 0x2029, 0x202F, 0x205F, 0x3000]

private theorem wideBlanks_not_word :
    ∀ n ∈ wideBlanks, (wordRanges.any fun (lo, hi) => lo ≤ n && n ≤ hi) = false := by
  decide +kernel

/-- No blank is a word character. -/
theorem isWord_eq_false_of_isBlank {c : Char} (h : isBlank c = true) : isWord c = false := by
  by_cases hascii : c.toNat < 0x80
  · rw [isWord_of_ascii hascii]
    have hnum : ∀ n < 0x80, ((0x09 ≤ n && n ≤ 0x0D) || n == 0x20) = true →
        isAsciiWord (Char.ofNat n) = false := by decide
    have hc := hnum c.toNat hascii
    rw [Char.ofNat_toNat] at hc
    apply hc
    simp only [isBlank, Bool.or_eq_true, Bool.and_eq_true, decide_eq_true_eq, beq_iff_eq] at h ⊢
    omega
  · have hmem : c.toNat ∈ wideBlanks := by
      simp only [wideBlanks, List.mem_append, List.mem_cons, List.not_mem_nil, or_false,
        List.mem_range'_1]
      simp only [isBlank, Bool.or_eq_true, Bool.and_eq_true, decide_eq_true_eq, beq_iff_eq] at h
      omega
    rw [isWord, if_neg hascii]
    exact wideBlanks_not_word _ hmem

/-- No word character is a blank. -/
theorem isBlank_eq_false_of_isWord {c : Char} (h : isWord c = true) : isBlank c = false := by
  cases hblank : isBlank c with
  | false => rfl
  | true => rw [isWord_eq_false_of_isBlank hblank] at h; cases h

/-! ## Readers -/

/-- What follows a front, exactly when the text begins with it. -/
theorem afterFront?_eq_some_iff {front cs rest : List Char} :
    afterFront? front cs = some rest ↔ cs = front ++ rest :=
  ⟨eq_append_of_afterFront?, fun h => h ▸ afterFront?_append front rest⟩

/-- Blanks before a text that begins with none are skipped. -/
theorem skipBlanks_append {bs : List Char} (hbs : ∀ b ∈ bs, isBlank b = true) {c : Char}
    (hc : isBlank c = false) (cs : List Char) : skipBlanks (bs ++ c :: cs) = c :: cs := by
  induction bs with
  | nil => simp [skipBlanks, hc]
  | cons b bs ih =>
    have hb := hbs b List.mem_cons_self
    simp only [skipBlanks, List.cons_append, List.dropWhile_cons, hb, if_true] at ih ⊢
    exact ih fun x hx => hbs x (List.mem_cons_of_mem b hx)

/-- The blanks that are skipped, with what is left, are the text. -/
theorem exists_blanks_append_skipBlanks (cs : List Char) :
    ∃ bs, (∀ b ∈ bs, isBlank b = true) ∧ cs = bs ++ skipBlanks cs :=
  ⟨cs.takeWhile isBlank, List.all_eq_true.1 List.all_takeWhile,
    List.takeWhile_append_dropWhile.symm⟩

/-- A run of items with a property, up to an item without it. -/
theorem takeWhile_dropWhile_append {α : Type} {p : α → Bool} {xs ys : List α}
    (hx : ∀ x ∈ xs, p x = true) (hy : ∀ y ∈ ys.head?, p y = false) :
    (xs ++ ys).takeWhile p = xs ∧ (xs ++ ys).dropWhile p = ys := by
  rw [List.takeWhile_append_of_pos hx, List.dropWhile_append_of_pos hx]
  cases ys with
  | nil => simp
  | cons y ys =>
    have hy' : p y = false := hy y rfl
    simp [hy']

/-- A list is cut at its first item of a kind in one way only. -/
theorem append_cons_inj {α : Type} {p : α → Bool} {xs ys zs ws : List α} {a b : α}
    (h : xs ++ a :: ys = zs ++ b :: ws) (hxs : ∀ x ∈ xs, p x = false) (hzs : ∀ z ∈ zs, p z = false)
    (ha : p a = true) (hb : p b = true) : xs = zs ∧ a = b ∧ ys = ws := by
  rcases List.append_eq_append_iff.1 h with ⟨us, rfl, hus⟩ | ⟨us, rfl, hus⟩
  · cases us with
    | nil => simpa using hus
    | cons u us =>
      rw [List.cons_append, List.cons.injEq] at hus
      have hfalse := hzs u (List.mem_append_right xs List.mem_cons_self)
      rw [← hus.1, ha] at hfalse
      cases hfalse
  · cases us with
    | nil => simpa [eq_comm] using hus
    | cons u us =>
      rw [List.cons_append, List.cons.injEq] at hus
      have hfalse := hxs u (List.mem_append_right zs List.mem_cons_self)
      rw [← hus.1, hb] at hfalse
      cases hfalse

/-- A list is cut at the first place of an item in one way only. -/
theorem append_cons_inj_of_not_mem {α : Type} [DecidableEq α] {xs ys zs ws : List α} {a : α}
    (h : xs ++ a :: ys = zs ++ a :: ws) (hxs : a ∉ xs) (hzs : a ∉ zs) : xs = zs ∧ ys = ws := by
  have hne : ∀ us : List α, a ∉ us → ∀ u ∈ us, decide (u = a) = false := by
    intro us hnot u hu
    exact decide_eq_false fun heq => hnot (heq ▸ hu)
  obtain ⟨hfront, -, hrest⟩ :=
    append_cons_inj h (hne xs hxs) (hne zs hzs) (decide_eq_true rfl) (decide_eq_true rfl)
  exact ⟨hfront, hrest⟩

/-! ## Byte offsets -/

/-- Cutting past a front cuts what follows it. -/
theorem dropBytes_append (xs ys : List Char) (n : Nat) :
    dropBytes (byteLength xs + n) (xs ++ ys) = dropBytes n ys := by
  induction xs with
  | nil => simp
  | cons c cs ih =>
    have hpos := c.utf8Size_pos
    obtain ⟨k, hk⟩ : ∃ k, byteLength (c :: cs) + n = k + 1 :=
      ⟨byteLength (c :: cs) + n - 1, by rw [byteLength_cons]; omega⟩
    rw [hk, List.cons_append, dropBytes, ← hk, byteLength_cons, Nat.add_assoc,
      Nat.add_sub_cancel_left, ih]

/-- The slice between the ends of two pieces. -/
theorem sliceBytes_pieces (xs ys zs : List Char) :
    sliceBytes (byteLength xs) (byteLength xs + byteLength ys) (xs ++ (ys ++ zs)) = ys := by
  rw [sliceBytes, dropBytes_byteLength_append, Nat.add_sub_cancel_left,
    takeBytes_byteLength_append]

/-- A slice past a front is a slice of what follows it. -/
theorem sliceBytes_append (xs ys : List Char) (start stop : Nat) :
    sliceBytes (byteLength xs + start) (byteLength xs + stop) (xs ++ ys) =
      sliceBytes start stop ys := by
  rw [sliceBytes, sliceBytes, dropBytes_append, Nat.add_sub_add_left]

end SoloBuild.Text
