import SoloBuild.Text.Splitting

/-!
# Blanks

Unicode's `White_Space` characters, and the two operations on texts that use them: cutting the
blanks at the end and splitting into words.

- `trimEnd_append_blanks`: blanks at the end do not matter to `trimEnd`.
-/

namespace SoloBuild.Text

/-- A character with the Unicode property `White_Space`. -/
def isBlank (c : Char) : Bool :=
  let n := c.toNat
  (0x09 ≤ n && n ≤ 0x0D) || n == 0x20 || n == 0x85 || n == 0xA0 || n == 0x1680 ||
    (0x2000 ≤ n && n ≤ 0x200A) || n == 0x2028 || n == 0x2029 || n == 0x202F || n == 0x205F ||
    n == 0x3000

/-- The text after its leading blanks. -/
def skipBlanks (cs : List Char) : List Char :=
  cs.dropWhile isBlank

/-- The text without its trailing blanks. -/
def trimEnd (cs : List Char) : List Char :=
  (cs.reverse.dropWhile isBlank).reverse

/-- The maximal runs of characters that are not blank, in order. -/
def words (cs : List Char) : List (List Char) :=
  (splitWhere isBlank cs).filter fun piece => !piece.isEmpty

@[simp] theorem trimEnd_nil : trimEnd [] = [] := rfl

/-- Blanks at the end do not matter to `trimEnd`. -/
theorem trimEnd_append_blanks (cs bs : List Char) (h : ∀ b ∈ bs, isBlank b = true) :
    trimEnd (cs ++ bs) = trimEnd cs := by
  have hrev : ∀ b ∈ bs.reverse, isBlank b = true := fun b hb => h b (List.mem_reverse.1 hb)
  have hdrop : ∀ l : List Char, (∀ b ∈ l, isBlank b = true) → ∀ r,
      (l ++ r).dropWhile isBlank = r.dropWhile isBlank := by
    intro l hl r
    induction l with
    | nil => rfl
    | cons a l ih =>
      have ha := hl a (by simp)
      rw [List.cons_append, List.dropWhile_cons, if_pos ha]
      exact ih fun b hb => hl b (by simp [hb])
  simp [trimEnd, hdrop _ hrev]

/-- What `trimEnd` leaves is the front of the text. -/
theorem trimEnd_append_rest (cs : List Char) :
    trimEnd cs ++ (cs.reverse.takeWhile isBlank).reverse = cs := by
  have h : cs.reverse.takeWhile isBlank ++ cs.reverse.dropWhile isBlank = cs.reverse :=
    List.takeWhile_append_dropWhile
  rw [trimEnd, ← List.reverse_append, h, List.reverse_reverse]

end SoloBuild.Text
