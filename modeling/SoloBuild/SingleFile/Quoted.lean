/-!
# Quoted values

A value is written as a literal between single quotes, with a `^` before each `^`, quote and `$`.
-/

namespace SoloBuild.SingleFile

/-- The characters that are written with a `^` before them. -/
def isEscaped (c : Char) : Bool :=
  c == '^' || c == '\'' || c == '$'

/-- The content of the literal that stands for a value. -/
def escape : List Char → List Char
  | [] => []
  | c :: cs => if isEscaped c then '^' :: c :: escape cs else c :: escape cs

/-- The literal that stands for a value. -/
def quote (value : List Char) : List Char :=
  '\'' :: escape value ++ ['\'']

@[simp] theorem escape_append (xs ys : List Char) : escape (xs ++ ys) = escape xs ++ escape ys := by
  induction xs with
  | nil => rfl
  | cons c cs ih => by_cases h : isEscaped c <;> simp [escape, h, ih]

end SoloBuild.SingleFile
