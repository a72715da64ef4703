import SoloBuild.Toml.Number
import SoloBuild.Toml.Value

/-!
# Unquoted TOML values

Booleans, integers, floats, dates and times: the values that are written without quotes or brackets.
A value is read from the whole of its text, and a text that is none of them is refused.
-/

namespace SoloBuild.Toml

/-- The value written by an unquoted text. -/
def scalar? (cs : List Char) : Option Value :=
  if cs = "true".toList then some (.boolean true)
  else if cs = "false".toList then some (.boolean false)
  else match integer? cs with
    | some n => some (.integer n)
    | none => if isFloat cs then some (.float (String.ofList cs))
      else (Datetime.read? cs).map .datetime

/-- A character that ends an unquoted value. -/
def endsScalar (c : Char) : Bool :=
  c == ',' || c == '=' || c == '[' || c == ']' || c == '\x7b' || c == '\x7d' || c == '#' ||
    c == '\n' || c == '\r'

/-- The text of the unquoted value that the text begins with, and the rest, blanks between them
included. A date and a time may be separated by a blank, so a blank does not end a value. -/
def splitScalar (cs : List Char) : List Char × List Char :=
  let isBlank (c : Char) : Bool := c == ' ' || c == '\t'
  let token := cs.takeWhile (!endsScalar ·)
  let scalar := (token.reverse.dropWhile isBlank).reverse
  (scalar, cs.drop scalar.length)

end SoloBuild.Toml
