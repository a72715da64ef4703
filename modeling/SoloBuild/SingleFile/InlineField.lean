import SoloBuild.Text.Blank
import SoloBuild.Text.WordChar

/-!
# Fields inside a line

A declaration written on one line carries all its fields on that line, so the fields that a
single-file target must not have are cut out of it one by one. Two shapes are cut: the unity field
with a literal, a list or a reference as its value, and any field whose value is a copy step or a
list that names one. The blanks after a field that is cut, and one separator among them, go with it.

Each reader takes the text at which it is tried and gives what follows the field there, or nothing.
-/

namespace SoloBuild.SingleFile

open Text

/-- A brace of either direction. -/
def isBrace (c : Char) : Bool :=
  c == '\x7b' || c == '\x7d'

/-- What follows an equals sign, with the blanks around it. -/
def afterEquals? (cs : List Char) : Option (List Char) :=
  (afterFront? ['='] (skipBlanks cs)).map skipBlanks

/-- The text after blanks, and after one separator and the blanks that follow it. -/
def afterSeparator (cs : List Char) : List Char :=
  match skipBlanks cs with
  | ';' :: rest => skipBlanks rest
  | rest => rest

/-- What follows a word of at least one character. -/
def afterWord? (cs : List Char) : Option (List Char) :=
  if (cs.takeWhile isWord).isEmpty then none else some (cs.dropWhile isWord)

/-- What follows text without braces and the closing brace that ends it. -/
def afterClosing? (cs : List Char) : Option (List Char) :=
  afterFront? ['\x7d'] (cs.dropWhile fun c => !isBrace c)

/-- What follows a value: a literal in either kind of quotes, a list without lists inside, or a
reference to a field. -/
def afterValue? : List Char → Option (List Char)
  | '\'' :: cs => (upTo? '\'' cs).map (·.2)
  | '"' :: cs => (upTo? '"' cs).map (·.2)
  | '\x7b' :: cs => afterClosing? cs
  | '.' :: cs => afterWord? cs
  | _ => none

/-- What follows a list that holds `marker`, after its opening brace. -/
def afterMarkedList? (marker cs : List Char) : Option (List Char) :=
  let length := (cs.takeWhile fun c => !isBrace c).length
  (List.range (length + 1)).reverse.findSome? fun n =>
    (afterFront? marker (cs.drop n)).bind afterClosing?

/-- What follows a value that names a copy step: a list that holds `marker`, or a literal that
begins with it. -/
def afterCopyStep? (marker cs : List Char) : Option (List Char) :=
  match (afterFront? ['\x7b'] cs).bind (afterMarkedList? marker) with
  | some rest => some rest
  | none => (afterFront? marker cs).bind fun rest => (upTo? '\'' rest).map (·.2)

/-- What follows an assignment to the unity field. -/
def afterUnityField? (field cs : List Char) : Option (List Char) :=
  (((afterFront? field cs).bind afterEquals?).bind afterValue?).map afterSeparator

/-- What follows an assignment of copy steps. -/
def afterCopyStepField? (marker cs : List Char) : Option (List Char) :=
  ((((afterFront? ['.'] cs).bind afterWord?).bind afterEquals?).bind (afterCopyStep? marker)).map
    afterSeparator

/-- Cuts from left to right whatever a reader reads; the first argument counts the characters that
are cut already. -/
def cutFrom (after? : List Char → Option (List Char)) : Nat → List Char → List Char
  | _, [] => []
  | skip + 1, _ :: cs => cutFrom after? skip cs
  | 0, c :: cs =>
    match after? (c :: cs) with
    | none => c :: cutFrom after? 0 cs
    | some rest => cutFrom after? (cs.length - rest.length) cs

/-- A line without the fields a single-file target must not have. -/
def cutInlineFields (unityField copyStepMarker line : List Char) : List Char :=
  cutFrom (afterCopyStepField? copyStepMarker) 0 (cutFrom (afterUnityField? unityField) 0 line)

end SoloBuild.SingleFile
