import SoloBuild.Text.Digits
import SoloBuild.Text.Splitting

/-!
# Numbers

Integers in four bases and floats. Underscores may separate digits. Whether a text is a number is
decided here by its form; an integer can have the form and still be no number, because digits are
missing after the mark of its base or because letters follow an underscore. Such a value does no
harm in a place where nobody asks for it.
-/

namespace SoloBuild.Toml

open Text

/-- A sign, when the text begins with one, and the rest. -/
def splitSign : List Char → Option Char × List Char
  | '+' :: cs => (some '+', cs)
  | '-' :: cs => (some '-', cs)
  | cs => (none, cs)

/-- Every underscore stands between digits. Before the first one there may also be a sign alone. -/
def separated (isDigit : Char → Bool) (cs : List Char) : Bool :=
  match splitWhere (· == '_') cs with
  | first :: rest =>
    rest.isEmpty ||
      ((first.length == 1 || first.getLast?.any isDigit) &&
        rest.all (fun piece => piece.head?.any isDigit) &&
        rest.dropLast.all (fun piece => piece.getLast?.any isDigit))
  | [] => true

/-! ## Integers -/

/-- The base that a mark in front stands for, its digits, and the text after the mark. -/
def based? : List Char → Option (Nat × (Char → Bool) × List Char)
  | '0' :: 'x' :: digits => some (16, isHexDigit, digits)
  | '0' :: 'o' :: digits => some (8, isOctalDigit, digits)
  | '0' :: 'b' :: digits => some (2, isBinaryDigit, digits)
  | _ => none

/-- The number that digits and underscores write, if they are digits of the base. -/
def writtenNumber? (base : Nat) (isDigit : Char → Bool) (cs : List Char) : Option Nat :=
  let digits := cs.filter (· != '_')
  if !digits.isEmpty && digits.all isDigit then some (numberOf base digits) else none

/-- The value of an integer in a base, if the text has the form of one: `some none` if it is no
number all the same. -/
def basedInteger? (base : Nat) (isDigit : Char → Bool) (digits : List Char) :
    Option (Option Int) :=
  if digits.all (fun c => isDigit c || c == '_') && separated isHexDigit digits then
    some ((writtenNumber? base isDigit digits).map Int.ofNat)
  else none

/-- The value of a decimal integer, if the text has the form of one: digits, or digits and then
underscores with more after them. There is no needless zero in front. -/
def decimalInteger? (cs : List Char) : Option (Option Int) :=
  let (sign, digits) := splitSign cs
  let after := digits.dropWhile Char.isDigit
  let hasForm := if after.isEmpty then !digits.isEmpty else after.head? == some '_'
  if hasForm && (digits.head? != some '0' || digits.length == 1) && separated isHexDigit cs then
    some ((writtenNumber? 10 Char.isDigit digits).map fun (n : Nat) =>
      if sign = some '-' then -(n : Int) else n)
  else none

/-- The value of an integer, if the text has the form of one. -/
def integer? (cs : List Char) : Option (Option Int) :=
  match based? cs with
  | some (base, isDigit, digits) => basedInteger? base isDigit digits
  | none => decimalInteger? cs

/-! ## Floats -/

/-- The text after digits and underscores, when there are digits among them. A zero in front of
other digits may be needless. -/
def afterDigits? (zeros : Bool) (cs : List Char) : Option (List Char) :=
  let run := cs.takeWhile fun c => c.isDigit || c == '_'
  let count := run.countP Char.isDigit
  if count = 0 then none
  else if !zeros && 1 < count && run.head? == some '0' then none
  else some (cs.drop run.length)

/-- Digits with a fraction, an exponent or both after them. -/
def isDigitFloat (cs : List Char) : Bool :=
  let whole : Option (List Char) := do
    let rest ← afterDigits? false cs
    let rest ← match rest with
      | '.' :: rest => afterDigits? true rest
      | rest => some rest
    match rest with
    | 'e' :: rest | 'E' :: rest => afterDigits? true (splitSign rest).2
    | rest => some rest
  whole == some []

/-- A float: a number with a fraction or an exponent, or one of the special floats. -/
def isFloat (cs : List Char) : Bool :=
  let unsigned := (splitSign cs).2
  unsigned == "inf".toList || unsigned == "nan".toList ||
    ((cs.any fun c => c == '.' || c == 'e' || c == 'E') &&
      isDigitFloat unsigned && separated Char.isDigit cs)

end SoloBuild.Toml
