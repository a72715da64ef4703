import SoloBuild.Toml.Quoted
import SoloBuild.Toml.Scalar

/-!
# Reading TOML documents

A document is read statement by statement: a header opens a table or adds an element to an array of
tables, and an assignment gives a value to a dotted key of the open table. Whatever is not TOML is
refused as a whole.
-/

namespace SoloBuild.Toml

open Text

/-- The text after blanks. -/
def skipSpaces (cs : List Char) : List Char :=
  cs.dropWhile fun c => c == ' ' || c == '\t'

/-- The text after a comment, when it begins with one; nothing when the comment holds a character
that may not stand in a document. -/
def afterComment? (cs : List Char) : Option (List Char) :=
  match cs with
  | '#' :: rest =>
    let body := rest.takeWhile fun c => c != '\n'
    let text :=
      if body.getLast? = some '\r' ∧ body.length < rest.length then body.dropLast else body
    if text.any isControl then none else some (rest.drop text.length)
  | cs => some cs

/-- The text after blanks and a comment, up to the end of its line; nothing when something else
stands there. -/
def afterLine? (cs : List Char) : Option (List Char) := do
  let rest ← afterComment? (skipSpaces cs)
  if rest.isEmpty then return [] else afterNewline? rest

/-- The text after blanks, comments and line breaks. The first argument bounds their number. -/
def skipFiller? : Nat → List Char → Option (List Char)
  | 0, cs => some cs
  | n + 1, cs => do
    let rest ← afterComment? (skipSpaces cs)
    match afterNewline? rest with
    | some rest => skipFiller? n rest
    | none => return rest

/-- A character of an unquoted key. -/
def isKeyChar (c : Char) : Bool :=
  c.isAlphanum || c == '_' || c == '-'

/-- The simple key that the text begins with, and the rest. -/
def simpleKey? (cs : List Char) : Option (String × List Char) :=
  match cs with
  | '"' :: rest => (basic? (rest.length + 1) rest).map fun (key, rest) => (String.ofList key, rest)
  | '\'' :: rest => (literal? rest).map fun (key, rest) => (String.ofList key, rest)
  | cs =>
    let key := cs.takeWhile isKeyChar
    if key.isEmpty then none else some (String.ofList key, cs.drop key.length)

/-- How many parts a dotted key may have, and how many brackets may be open around a value. -/
def nestingLimit : Nat := 80

/-- The dotted key that the text begins with, blanks around it included, and the rest. The first
argument bounds the number of its parts. -/
def dottedKey? : Nat → List Char → Option (List String × List Char)
  | 0, _ => none
  | n + 1, cs => do
    let (key, rest) ← simpleKey? (skipSpaces cs)
    match skipSpaces rest with
    | '.' :: rest =>
      let (keys, rest) ← dottedKey? n rest
      return (key :: keys, rest)
    | rest => return ([key], rest)

mutual

/-- The value that the text begins with, and the rest. The first argument bounds the number of the
values inside it, and the second one how deep brackets may be nested. -/
def value? : Nat → Nat → List Char → Option (Value × List Char)
  | 0, _, _ => none
  | n + 1, depth, cs =>
    match depth, cs with
    | 0, '[' :: _ | 0, '\x7b' :: _ => none
    | depth + 1, '[' :: rest => do
      let (items, rest) ← items? n depth rest
      return (.array items, rest)
    | depth + 1, '\x7b' :: rest => do
      let rest ← skipFiller? rest.length rest
      match rest with
      | '\x7d' :: rest => return (.table .inline [], rest)
      | rest =>
        let (entries, rest) ← entries? n depth [] rest
        return (.table .inline entries, rest)
    | _, cs =>
      if cs.head? == some '"' || cs.head? == some '\'' then
        (quotedString? cs).map fun (text, rest) => (.string (String.ofList text), rest)
      else
        let (token, rest) := splitScalar cs
        (scalar? token).map fun v => (v, rest)

/-- The rest of an array: its items, up to the closing bracket. -/
def items? : Nat → Nat → List Char → Option (List Value × List Char)
  | 0, _, _ => none
  | n + 1, depth, cs => do
    let rest ← skipFiller? cs.length cs
    match rest with
    | ']' :: rest => return ([], rest)
    | rest =>
      let (item, rest) ← value? n depth rest
      let rest ← skipFiller? rest.length rest
      match rest with
      | ',' :: rest =>
        let (items, rest) ← items? n depth rest
        return (item :: items, rest)
      | ']' :: rest => return ([item], rest)
      | _ => none

/-- The rest of an inline table that is not empty: its entries, up to the closing brace. Lines may
be broken anywhere but in a key. -/
def entries? : Nat → Nat → Table → List Char → Option (Table × List Char)
  | 0, _, _, _ => none
  | n + 1, depth, entries, cs => do
    let (keys, rest) ← dottedKey? nestingLimit cs
    let rest ← skipFiller? rest.length rest
    match rest with
    | '=' :: rest =>
      let rest ← skipFiller? rest.length rest
      let (v, rest) ← value? n depth rest
      let entries ← entries.assign? keys v
      let rest ← skipFiller? rest.length rest
      match rest with
      | ',' :: rest =>
        let rest ← skipFiller? rest.length rest
        match rest with
        | '\x7d' :: rest => return (entries, rest)
        | rest => entries? n depth entries rest
      | '\x7d' :: rest => return (entries, rest)
      | _ => none
    | _ => none

end

/-- One statement: the document and the path of the open table after it, and the rest of the text
from the next line on. -/
def statement? (document : Table) (current : List String) (cs : List Char) :
    Option (Table × List String × List Char) :=
  match cs with
  | '[' :: '[' :: rest => do
    let (path, rest) ← dottedKey? nestingLimit rest
    let rest ← afterFront? [']', ']'] rest
    let document ← document.openElement? path
    return (document, path, ← afterLine? rest)
  | '[' :: rest => do
    let (path, rest) ← dottedKey? nestingLimit rest
    let rest ← afterFront? [']'] rest
    let document ← document.openTable? path
    return (document, path, ← afterLine? rest)
  | cs => do
    let (keys, rest) ← dottedKey? nestingLimit cs
    let rest ← afterFront? ['='] rest
    let (v, rest) ← value? (rest.length + 1) nestingLimit (skipSpaces rest)
    let document ← Table.edit? false current (·.assign? keys v) document
    return (document, current, ← afterLine? rest)

/-- The statements of a document, from a state between two lines. The first argument bounds the
number of statements. -/
def statements? : Nat → Table → List String → List Char → Option Table
  | 0, document, _, cs => if cs.isEmpty then some document else none
  | n + 1, document, current, cs => do
    let rest ← skipFiller? (cs.length + 1) cs
    if rest.isEmpty then return document
    else
      let (document, current, rest) ← statement? document current rest
      statements? n document current rest

/-- The table of a document. A byte order mark in front is not part of it. -/
def read? (text : String) : Option Table :=
  let cs := text.toList
  let cs := if cs.head? = some '\uFEFF' then cs.drop 1 else cs
  statements? (cs.length + 1) [] [] cs

end SoloBuild.Toml
