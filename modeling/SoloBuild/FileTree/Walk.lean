import SoloBuild.FileTree.Basic
import SoloBuild.OsError
import SoloBuild.Text.Bytes

/-!
# Following paths

A path is followed name by name from the root or from the working directory. `.` stays, `..` goes
back, a symbolic link is replaced by its target, and everything but the last name has to lead to a
directory. The last name may be missing, so that it can be created.
-/

namespace SoloBuild

/-- The names a path is followed by. A separator at its end asks for a directory, which is what a
final `.` asks for too. -/
def Path.steps (p : Path) : List String :=
  let names := p.segments.filter fun segment => !segment.isEmpty
  let asksDirectory := !names.isEmpty && p.text.toList.getLast? == some '/'
  (names.map String.ofList) ++ (if asksDirectory then ["."] else [])

/-- The path that names a place from the root. -/
def Path.ofLocation (place : Location) : Path :=
  if place.isEmpty then ⟨"/"⟩ else ⟨place.foldl (fun text name => text ++ "/" ++ name) ""⟩

/-- Where a path leads, and what is there. Nothing is there when only the last name is missing. -/
structure Place where
  location : Location
  node? : Option Node

namespace FileTree

/-- How many symbolic links one path may lead through. -/
def linkLimit : Nat := 40

/-- How many bytes a name may have. -/
def nameLimit : Nat := 255

/-- How many bytes a path may have. -/
def pathLimit : Nat := 4095

/-- Follows names from a place. `onLink` goes on from a link, given the directory that the link is
in, its target, and the names after it. -/
def walkFrom (t : FileTree) (followLast : Bool)
    (onLink : Location → Path → List String → Except OsError Place) :
    Location → List String → Except OsError Place
  | here, [] => .ok ⟨here, t.node? here⟩
  | here, name :: rest =>
    match t.node? here with
    | some .directory =>
      if name = "." then walkFrom t followLast onLink here rest
      else if name = ".." then walkFrom t followLast onLink here.dropLast rest
      else if nameLimit < name.utf8ByteSize then .error .nameTooLong
      else
        match t.node? (here ++ [name]) with
        | none => if rest.isEmpty then .ok ⟨here ++ [name], none⟩ else .error .notFound
        | some (.link target) =>
          if rest.isEmpty && !followLast then .ok ⟨here ++ [name], some (.link target)⟩
          else onLink here target rest
        | some _ => walkFrom t followLast onLink (here ++ [name]) rest
    | _ => .error .notADirectory

/-- Follows names from a place through at most so many links. -/
def walk (t : FileTree) (followLast : Bool) : Nat → Location → List String → Except OsError Place
  | 0 => walkFrom t followLast fun _ _ _ => .error .tooManyLinks
  | links + 1 => walkFrom t followLast fun here target rest =>
    walk t followLast links (if target.isAbsolute then [] else here) (target.steps ++ rest)

/-- Where a relative or absolute path starts. -/
def start (t : FileTree) (p : Path) : Location :=
  if p.isAbsolute then [] else t.workingDir

/-- Where a path leads. When `followLast` does not hold, a link at its end stands for itself. -/
def find (t : FileTree) (p : Path) (followLast : Bool) : Except OsError Place :=
  if p.text.toList.contains '\x00' then .error .nulInPath
  else if p.text.isEmpty then .error .notFound
  else if pathLimit < p.text.utf8ByteSize then .error .nameTooLong
  else t.walk followLast linkLimit (t.start p) p.steps

/-- The absolute path without links, `.` and `..` of something that exists. -/
def canonicalize (t : FileTree) (p : Path) : Except OsError Path :=
  match t.find p true with
  | .error e => .error e
  | .ok ⟨_, none⟩ => .error .notFound
  | .ok ⟨place, some _⟩ => .ok (Path.ofLocation place)

end FileTree

end SoloBuild
