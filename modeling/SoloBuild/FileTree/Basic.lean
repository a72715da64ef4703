import SoloBuild.Path

/-!
# File trees

A tree of directories, files and symbolic links, with the directory that relative paths start from.
Every place in it is known by the names that lead there from the root. What is at a place is the
one view of a tree (`node?`); each change is described through it:

- `node?_put`: putting something at a place changes that place alone;
- `node?_erase`, `node?_eraseBelow`: erasing removes what is at or below a place, and nothing else.
-/

namespace SoloBuild

/-- A place in a file tree: the names that lead to it from the root. -/
abbrev Location := List String

/-- What is at a place. -/
inductive Node where
  | directory
  | file (content : ByteArray) (executable : Bool)
  /-- A symbolic link. -/
  | link (target : Path)
  /-- A program that comes with the system, known by its name. -/
  | program (name : String)

def Node.isDirectory : Node → Bool
  | directory => true
  | file .. | link _ | program _ => false

/-- Files and directories, and the directory that relative paths start from. -/
structure FileTree where
  nodes : List (Location × Node) := []
  workingDir : Location := []

namespace FileTree

/-- What is at a place. The root is always a directory. -/
def node? (t : FileTree) (place : Location) : Option Node :=
  if place = [] then some .directory else t.nodes.lookup place

/-- The tree with something put at a place, instead of what was there. -/
def put (t : FileTree) (place : Location) (node : Node) : FileTree :=
  { t with nodes := (place, node) :: t.nodes.filter fun entry => entry.1 != place }

/-- `place` is `top` or below it. -/
def isWithin (top place : Location) : Bool :=
  top.isPrefixOf place

/-- The tree without what is at a place or below it. -/
def erase (t : FileTree) (top : Location) : FileTree :=
  { t with nodes := t.nodes.filter fun entry => !isWithin top entry.1 }

/-- The tree without what is below a place. -/
def eraseBelow (t : FileTree) (top : Location) : FileTree :=
  { t with nodes := t.nodes.filter fun entry => !isWithin top entry.1 || entry.1 == top }

/-- Everything below a place, with the names that lead there from it. -/
def below (t : FileTree) (top : Location) : List (Location × Node) :=
  (t.nodes.filter fun entry => isWithin top entry.1 && entry.1 != top).map fun (place, node) =>
    (place.drop top.length, node)

/-! ## What is at a place after a change -/

private theorem lookup_filter (p : Location → Bool) (place : Location)
    (nodes : List (Location × Node)) :
    (nodes.filter fun entry => p entry.1).lookup place =
      if p place then nodes.lookup place else none := by
  induction nodes with
  | nil => simp
  | cons entry nodes ih =>
    obtain ⟨q, node⟩ := entry
    by_cases hq : q = place
    · subst hq
      cases hp : p q <;> simp [hp, ih]
    · have hne : (place == q) = false := by simpa using fun h => hq h.symm
      cases hp : p q <;> simp [hp, List.lookup_cons, hne, ih]

@[simp] theorem node?_nil (t : FileTree) : t.node? [] = some .directory := rfl

/-- Putting something at a place changes that place alone. -/
theorem node?_put {t : FileTree} {place other : Location} {node : Node} (h : other ≠ []) :
    (t.put place node).node? other = if other = place then some node else t.node? other := by
  by_cases heq : other = place
  · subst heq; simp [node?, put, h]
  · have hne : (other == place) = false := by simpa using heq
    have := lookup_filter (fun q => q != place) other t.nodes
    simp [node?, put, h, heq, List.lookup_cons, hne, this]

/-- Erasing a place removes what is at it or below it, and nothing else. -/
theorem node?_erase {t : FileTree} {top place : Location} (h : place ≠ []) :
    (t.erase top).node? place = if isWithin top place then none else t.node? place := by
  have := lookup_filter (fun q => !isWithin top q) place t.nodes
  simp only [node?, erase, h, if_false, this]
  cases isWithin top place <;> rfl

/-- Erasing below a place removes what is below it, and nothing else. -/
theorem node?_eraseBelow {t : FileTree} {top place : Location} (h : place ≠ []) :
    (t.eraseBelow top).node? place =
      if isWithin top place ∧ place ≠ top then none else t.node? place := by
  have := lookup_filter (fun q => !isWithin top q || q == top) place t.nodes
  simp only [node?, eraseBelow, h, if_false, this]
  by_cases hw : isWithin top place = true <;> by_cases he : place = top <;> simp [hw, he]

@[simp] theorem workingDir_put (t : FileTree) (place : Location) (node : Node) :
    (t.put place node).workingDir = t.workingDir := rfl

end FileTree

end SoloBuild
