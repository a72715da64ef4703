import SoloBuild.Text.Splitting

/-!
# Paths

Paths are kept as they are written: nothing is normalised until a directory is looked up. Two paths
are compared by their components, where repeated separators, `.` segments after the first and a
separator at the end do not count.

- `startsWith_iff`: one path lies below another exactly when its components begin with the other's.
-/

namespace SoloBuild

/-- A path, as written. -/
structure Path where
  text : String
  deriving DecidableEq, Repr, Inhabited

namespace Path

/-- A component of a path. -/
inductive Component where
  /-- The separator an absolute path begins with. -/
  | root
  /-- A `.` at the very start of a relative path. -/
  | current
  /-- A `..` segment. -/
  | parent
  /-- A named segment. -/
  | named (name : String)
  deriving DecidableEq, Repr

/-- A path that begins with the separator. -/
def isAbsolute (p : Path) : Bool :=
  p.text.toList.head? == some '/'

/-- The text between separators, in order. -/
def segments (p : Path) : List (List Char) :=
  Text.splitWhere (· == '/') p.text.toList

/-- `p` resolved against `base`: an absolute path stands for itself, and a relative one is written
after the base with one separator between them. -/
def join (base p : Path) : Path :=
  if p.isAbsolute then p
  else if base.text.isEmpty || base.text.toList.getLast? == some '/' then ⟨base.text ++ p.text⟩
  else ⟨base.text ++ "/" ++ p.text⟩

/-- A segment that names nothing: an empty one, or a `.`. -/
def isVoidSegment (s : List Char) : Bool :=
  s.isEmpty || s == ['.']

/-- The component a segment after the first stands for. -/
def componentOf? (s : List Char) : Option Component :=
  if isVoidSegment s then none
  else if s == ['.', '.'] then some .parent
  else some (.named (String.ofList s))

/-- The components of a path. -/
def components (p : Path) : List Component :=
  match p.segments with
  | [] => []
  | first :: rest =>
    let front : List Component :=
      if p.isAbsolute then [.root]
      else if first == ['.'] then [.current]
      else (componentOf? first).toList
    front ++ rest.filterMap componentOf?

/-- `p` lies at or below `base`, component by component. -/
def startsWith (p base : Path) : Bool :=
  base.components.isPrefixOf p.components

/-- The segments before the last one that stands for a component, without the void segments that
then end them. `none` when no segment after the root stands for a component. -/
def parentSegments? (p : Path) : Option (List (List Char)) :=
  let isVoid (i : Nat) (s : List Char) : Bool :=
    if i = 0 then s.isEmpty else isVoidSegment s
  let dropVoid (l : List (Nat × List Char)) := l.dropWhile fun (i, s) => isVoid i s && i != 0
  let numbered := (p.segments.zipIdx.map fun (s, i) => (i, s)).reverse
  match dropVoid numbered with
  | [] => none
  | (i, s) :: rest =>
    if isVoid i s then none else some ((dropVoid rest).reverse.map (·.2))

/-- The path without its last component. The root and the empty path have no parent; the parent of
a single relative component is the empty path. -/
def parent? (p : Path) : Option Path :=
  p.parentSegments?.map fun segments =>
    if segments == [[]] then ⟨"/"⟩
    else ⟨String.ofList (Text.joinWith '/' segments)⟩

/-- One path lies below another exactly when its components begin with the other's. -/
theorem startsWith_iff {p base : Path} :
    p.startsWith base = true ↔ base.components <+: p.components :=
  List.isPrefixOf_iff_prefix

end Path

end SoloBuild
