import SoloBuild.FileTree.Files

/-!
# Layouts

A file tree is laid out entry by entry, each with the directories it needs, and listed as the paths
below a place.
-/

namespace SoloBuild

/-- Something that is laid out in a file tree. -/
inductive LayoutEntry where
  | directory (path : Path)
  | file (path : Path) (content : ByteArray) (executable : Bool)
  | link (path target : Path)

namespace FileTree

/-- The tree with the directories that a path leads through, its last name excluded. -/
def createParents (t : FileTree) (p : Path) : FileTree :=
  match p.parent? with
  | some parent => t.createDirectories parent
  | none => t

/-- The tree with one more entry. An entry whose place is taken, or cannot be reached, changes
nothing but the directories before it; a file replaces the file that was there. -/
def add (t : FileTree) : LayoutEntry → FileTree
  | .directory p => t.createDirectories p
  | .file p content executable =>
    let t := t.createParents p
    match t.placeToWrite p with
    | .ok place => t.put place (.file content executable)
    | .error _ => t
  | .link p target =>
    let t := t.createParents p
    match t.find p false with
    | .ok ⟨place, none⟩ => t.put place (.link target)
    | _ => t

/-- The tree with more entries. -/
def layOut (t : FileTree) (entries : List LayoutEntry) : FileTree :=
  entries.foldl add t

/-- The paths below a place, in order; those of directories end with a separator. -/
def listing (t : FileTree) (top : Location) : List String :=
  let shown := (t.below top).map fun (names, node) =>
    let text := "/".intercalate names
    match node with
    | .directory => text ++ "/"
    | _ => text
  shown.mergeSort fun a b => a ≤ b

end FileTree

end SoloBuild
