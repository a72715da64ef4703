import SoloBuild.Text.Digits
import SoloBuild.Text.Splitting

/-!
# Quoted TOML strings

The four kinds of quoted strings: basic strings with escapes, literal strings without, and either
kind over several lines between triple quotes. Each reader takes the text after the opening quotes
and gives the string's text with what follows the closing quotes.
-/

namespace SoloBuild.Toml

open Text

/-- A character that may not stand in a TOML document as it is. Tabs and line breaks are allowed
where the grammar has a place for them. -/
def isControl (c : Char) : Bool :=
  (c.toNat < 0x20 && c != '\t') || c.toNat == 0x7F

/-- The character with a code, unless the code belongs to no character. -/
def charOf? (code : Nat) : Option Char :=
  if h : code.isValidChar then some (Char.ofNatAux code h) else none

/-- The character named by `count` hexadecimal digits in front, and the rest. -/
def escapedCode? (count : Nat) (cs : List Char) : Option (Char × List Char) :=
  let digits := cs.take count
  if digits.length = count ∧ digits.all isHexDigit then
    (charOf? (numberOf 16 digits)).map fun c => (c, cs.drop count)
  else none

/-- The character an escape stands for, given the text after the backslash, and the rest. -/
def escaped? : List Char → Option (Char × List Char)
  | 'b' :: cs => some ('\x08', cs)
  | 't' :: cs => some ('\t', cs)
  | 'n' :: cs => some ('\n', cs)
  | 'f' :: cs => some ('\x0c', cs)
  | 'r' :: cs => some ('\r', cs)
  | 'e' :: cs => some ('\x1b', cs)
  | '"' :: cs => some ('"', cs)
  | '\\' :: cs => some ('\\', cs)
  | 'x' :: cs => escapedCode? 2 cs
  | 'u' :: cs => escapedCode? 4 cs
  | 'U' :: cs => escapedCode? 8 cs
  | _ => none

/-- The rest of a basic string. The first argument bounds the number of its characters. -/
def basic? : Nat → List Char → Option (List Char × List Char)
  | 0, _ => none
  | n + 1, cs =>
    match cs with
    | [] => none
    | '"' :: rest => some ([], rest)
    | '\\' :: rest => do
      let (c, rest) ← escaped? rest
      let (text, rest) ← basic? n rest
      return (c :: text, rest)
    | c :: rest =>
      if isControl c then none
      else do
        let (text, rest) ← basic? n rest
        return (c :: text, rest)

/-- The rest of a literal string. -/
def literal? (cs : List Char) : Option (List Char × List Char) := do
  let (text, rest) ← upTo? '\'' cs
  if text.any isControl then none else return (text, rest)

/-- What follows a line break, when the text begins with one. -/
def afterNewline? : List Char → Option (List Char)
  | '\n' :: cs => some cs
  | '\r' :: '\n' :: cs => some cs
  | _ => none

/-- What follows the closing triple quotes, with the quotes before them that belong to the text: up
to five quotes in a row may end a string. -/
def closingQuotes? (quote : Char) (cs : List Char) : Option (List Char × List Char) :=
  let run := (cs.takeWhile (· == quote)).length
  if run < 3 then none
  else
    let inner := min (run - 3) 2
    some (List.replicate inner quote, cs.drop (inner + 3))

/-- The text after a backslash at the end of a line: all blanks and line breaks are skipped, and
there has to be a line break among them. -/
def afterContinuation? (cs : List Char) : Option (List Char) := do
  let isSpace (c : Char) : Bool := c == ' ' || c == '\t'
  let rest ← afterNewline? (cs.dropWhile isSpace)
  return skip rest.length rest
where
  /-- Skips blanks and line breaks; the first argument bounds their number. -/
  skip : Nat → List Char → List Char
    | 0, cs => cs
    | n + 1, cs =>
      match cs with
      | ' ' :: rest => skip n rest
      | '\t' :: rest => skip n rest
      | cs => match afterNewline? cs with
        | some rest => skip n rest
        | none => cs

/-- The rest of a string over several lines. The first argument bounds the number of its
characters. -/
def multiline? (quote : Char) : Nat → List Char → Option (List Char × List Char)
  | 0, _ => none
  | n + 1, cs =>
    match closingQuotes? quote cs with
    | some closed => some closed
    | none =>
      match cs with
      | [] => none
      | c :: rest =>
        if c = '\\' ∧ quote = '"' then
          match afterContinuation? rest with
          | some rest => multiline? quote n rest
          | none => do
            let (c, rest) ← escaped? rest
            let (text, rest) ← multiline? quote n rest
            return (c :: text, rest)
        else if c = '\r' then
          match rest with
          | '\n' :: rest => do
            let (text, rest) ← multiline? quote n rest
            return ('\r' :: '\n' :: text, rest)
          | _ => none
        else if isControl c && c != '\n' then none
        else do
          let (text, rest) ← multiline? quote n rest
          return (c :: text, rest)

/-- A string over several lines; a line break just after the opening quotes does not belong to
it. -/
def multilineString? (quote : Char) (cs : List Char) : Option (List Char × List Char) :=
  multiline? quote (cs.length + 1) ((afterNewline? cs).getD cs)

/-- The quoted string that the text begins with, and the rest. -/
def quotedString? (cs : List Char) : Option (List Char × List Char) :=
  match cs with
  | '"' :: '"' :: '"' :: rest => multilineString? '"' rest
  | '\'' :: '\'' :: '\'' :: rest => multilineString? '\'' rest
  | '"' :: rest => basic? (rest.length + 1) rest
  | '\'' :: rest => literal? rest
  | _ => none

end SoloBuild.Toml
