import SoloBuild.Path
import SoloBuild.Text.Bytes
import SoloBuild.Text.Lines

/-!
# Targets

A build description declares targets: a kind, a quoted name, and a block of fields. A declaration
found in a description is kept as text, cut after its header.
-/

namespace SoloBuild.Description

/-- The kinds of targets that hold compiled objects. -/
inductive TargetKind where
  | objectList
  | library
  deriving DecidableEq, Repr

namespace TargetKind

/-- The word a declaration of this kind begins with. -/
def keyword : TargetKind → String
  | objectList => "ObjectList"
  | library => "Library"

/-- All kinds, in the order in which they are searched for. -/
def all : List TargetKind := [objectList, library]

end TargetKind

/-- A build description: its text, and the path it was read from. -/
structure Document where
  path : Path
  text : String
  deriving DecidableEq, Repr

/-- A declaration found in a description. Positions and lengths count bytes. -/
structure TargetNode where
  name : String
  kind : TargetKind
  /-- Where the declaration begins in its document. -/
  start : Nat
  /-- Where the declaration ends in its document. -/
  stop : Nat
  /-- The length of the header, up to the parenthesis that closes it. -/
  headerLength : Nat
  /-- The declaration, from its keyword to its closing brace. -/
  text : String
  deriving DecidableEq, Repr

namespace TargetNode

/-- The declaration up to the end of its header. -/
def header (node : TargetNode) : List Char :=
  Text.takeBytes node.headerLength node.text.toList

/-- The declaration after its header. -/
def body (node : TargetNode) : List Char :=
  Text.dropBytes node.headerLength node.text.toList

/-- The body, cut at its newlines. -/
def bodyLines (node : TargetNode) : List (List Char) :=
  Text.splitLines node.body

end TargetNode

end SoloBuild.Description
