/-!
# Byte offsets

Positions in a document are byte offsets into its UTF-8 form, while the document is read character
by character. This module holds the conversions: the byte length of a text, and the part of a text
before and after a byte offset. An offset inside a character stands for the end of that character.

- `takeBytes_byteLength_append`, `dropBytes_byteLength_append`: cutting at the end of a front gives
  the front and the rest.
-/

namespace SoloBuild.Text

/-- The number of bytes of the UTF-8 form. -/
def byteLength : List Char → Nat
  | [] => 0
  | c :: cs => c.utf8Size + byteLength cs

/-- The text before a byte offset. -/
def takeBytes : Nat → List Char → List Char
  | 0, _ => []
  | _, [] => []
  | n + 1, c :: cs => c :: takeBytes (n + 1 - c.utf8Size) cs

/-- The text after a byte offset. -/
def dropBytes : Nat → List Char → List Char
  | 0, cs => cs
  | _, [] => []
  | n + 1, c :: cs => dropBytes (n + 1 - c.utf8Size) cs

/-- The text between two byte offsets. -/
def sliceBytes (start stop : Nat) (cs : List Char) : List Char :=
  takeBytes (stop - start) (dropBytes start cs)

@[simp] theorem byteLength_nil : byteLength [] = 0 := rfl

@[simp] theorem byteLength_cons (c : Char) (cs : List Char) :
    byteLength (c :: cs) = c.utf8Size + byteLength cs := rfl

@[simp] theorem byteLength_append (xs ys : List Char) :
    byteLength (xs ++ ys) = byteLength xs + byteLength ys := by
  induction xs with
  | nil => simp
  | cons c cs ih => simp [ih, Nat.add_assoc]

private theorem succ_pred_utf8Size (c : Char) : ∃ k, c.utf8Size = k + 1 :=
  ⟨c.utf8Size - 1, by have := c.utf8Size_pos; omega⟩

@[simp] theorem takeBytes_byteLength_append (xs ys : List Char) :
    takeBytes (byteLength xs) (xs ++ ys) = xs := by
  induction xs with
  | nil => cases ys <;> simp [takeBytes]
  | cons c cs ih =>
    obtain ⟨k, hk⟩ := succ_pred_utf8Size c
    have : c.utf8Size + byteLength cs = (k + byteLength cs) + 1 := by omega
    rw [byteLength_cons, this, List.cons_append, takeBytes]
    have h2 : k + byteLength cs + 1 - c.utf8Size = byteLength cs := by omega
    rw [h2, ih]

@[simp] theorem dropBytes_byteLength_append (xs ys : List Char) :
    dropBytes (byteLength xs) (xs ++ ys) = ys := by
  induction xs with
  | nil => cases ys <;> simp [dropBytes]
  | cons c cs ih =>
    obtain ⟨k, hk⟩ := succ_pred_utf8Size c
    have : c.utf8Size + byteLength cs = (k + byteLength cs) + 1 := by omega
    rw [byteLength_cons, this, List.cons_append, dropBytes]
    have h2 : k + byteLength cs + 1 - c.utf8Size = byteLength cs := by omega
    rw [h2, ih]

end SoloBuild.Text
