import SoloBuild.Description.Block
import SoloBuild.Description.Header

/-!
# Locating a declaration

A target is found in a document by name. It has to be declared once among the kinds asked for, and
its declaration has to have a block; the node runs from the keyword to the brace that closes the
block, and its header ends with the parenthesis after the name.
-/

namespace SoloBuild.Description

open Text

/-- Why a target cannot be taken from a document. -/
inductive LocateError where
  /-- No declaration has the name. -/
  | notFound (name : String) (path : Path)
  /-- Several declarations have the name. -/
  | ambiguous (name : String) (path : Path) (count : Nat)
  /-- The declaration has no block, or its block does not end. -/
  | unterminatedScope (name : String) (path : Path)
  deriving DecidableEq, Repr

/-- The text an error is reported with. -/
def LocateError.message : LocateError → String
  | notFound name path => "could not find target '" ++ name ++ "' in " ++ path.text
  | ambiguous name path count =>
    "target '" ++ name ++ "' is declared " ++ toString count ++ " times in " ++ path.text
  | unterminatedScope name path =>
    "declaration of target '" ++ name ++ "' in " ++ path.text ++ " has no closing brace"

/-- The offset just after the first closing parenthesis of the text between two offsets, or the
first of them when there is none. -/
def headerEnd (text : List Char) (start stop : Nat) : Nat :=
  match upTo? ')' (sliceBytes start stop text) with
  | some (front, _) => start + byteLength front + 1
  | none => start

/-- The declaration whose header is given, when its block ends. -/
def nodeAt? (text : List Char) (name : String) (header : Header) : Option TargetNode :=
  (balancedBlock (text.zip (classify text)) header.stop).map fun (opening, closing) =>
    { name, kind := header.kind
      start := header.start
      stop := closing + 1
      headerLength := headerEnd text header.stop opening - header.start
      text := String.ofList (sliceBytes header.start (closing + 1) text) }

/-- The declaration of `name` in a document, among the kinds asked for. -/
def Document.locate (document : Document) (name : String) (kinds : List TargetKind) :
    Except LocateError TargetNode :=
  let text := document.text.toList
  match headers text name.toList kinds with
  | [] => .error (.notFound name document.path)
  | [header] =>
    match nodeAt? text name header with
    | some node => .ok node
    | none => .error (.unterminatedScope name document.path)
  | many => .error (.ambiguous name document.path many.length)

end SoloBuild.Description
