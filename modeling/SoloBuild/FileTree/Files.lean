import SoloBuild.FileTree.Walk

/-!
# Reading, writing and removing

The operations that builds perform on files. Reading leaves the tree alone; writing changes one
file; removing takes away one subtree, and says why when it cannot be completed.
-/

namespace SoloBuild

namespace FileTree

/-- The content of a file. -/
def readBytes (t : FileTree) (p : Path) : Except OsError ByteArray :=
  match t.find p true with
  | .error e => .error e
  | .ok ⟨_, some (.file content _)⟩ => .ok content
  | .ok ⟨_, some .directory⟩ => .error .isADirectory
  | .ok ⟨_, some (.program _)⟩ => .error .notUtf8
  | .ok _ => .error .notFound

/-- The text of a file. -/
def readText (t : FileTree) (p : Path) : Except OsError String :=
  match t.readBytes p with
  | .error e => .error e
  | .ok content =>
    match String.fromUTF8? content with
    | some text => .ok text
    | none => .error .notUtf8

/-- The last name of a path has a separator after it. -/
def asksDirectory (p : Path) : Bool :=
  p.text.toList.getLast? == some '/'

/-- The place that a path leads to, as the place of a file to be written. -/
def placeToWrite (t : FileTree) (p : Path) : Except OsError Location :=
  if asksDirectory p then
    match t.walk true linkLimit (t.start p) p.steps.dropLast.dropLast with
    | .error e => .error e
    | .ok ⟨_, some .directory⟩ => .error .isADirectory
    | .ok ⟨_, some _⟩ => .error .notADirectory
    | .ok ⟨_, none⟩ => .error .notFound
  else
    match t.find p true with
    | .error e => .error e
    | .ok ⟨_, some .directory⟩ => .error .isADirectory
    | .ok ⟨_, some (.program _)⟩ => .error .permissionDenied
    | .ok ⟨place, _⟩ => .ok place

/-- What is written over keeps its permission to be executed. -/
def isExecutableAt (t : FileTree) (place : Location) : Bool :=
  match t.node? place with
  | some (.file _ executable) => executable
  | _ => false

/-- Writes a file, in place of what it held. -/
def writeBytes (t : FileTree) (p : Path) (content : ByteArray) : Except OsError FileTree :=
  match t.placeToWrite p with
  | .error e => .error e
  | .ok place => .ok (t.put place (.file content (t.isExecutableAt place)))

/-- Writes a text file. -/
def writeText (t : FileTree) (p : Path) (text : String) : Except OsError FileTree :=
  t.writeBytes p text.toUTF8

/-- Makes the directories that a path leads through, its last name included. -/
def createDirectories (t : FileTree) (p : Path) : FileTree :=
  go t (t.start p) p.steps
where
  /-- Goes on from a place that exists. -/
  go (t : FileTree) : Location → List String → FileTree
    | _, [] => t
    | here, name :: rest =>
      match t.walk true linkLimit here [name] with
      | .ok ⟨place, none⟩ => go (t.put place .directory) place rest
      | .ok ⟨place, some _⟩ => go t place rest
      | .error _ => t

/-- Why an empty directory that a path leads to cannot be removed under that path. -/
def removalError? (t : FileTree) (p : Path) : Option OsError :=
  let names := p.segments.filter fun segment => !segment.isEmpty
  match names.getLast? with
  | none => some .directoryNotEmpty
  | some last =>
    if last = ['.'] then some .invalidArgument
    else if last = ['.', '.'] then some .directoryNotEmpty
    else
      match t.walk false linkLimit (t.start p) (names.map String.ofList) with
      | .error e => some e
      | .ok ⟨_, some .directory⟩ => none
      | .ok ⟨_, some _⟩ => some .notADirectory
      | .ok ⟨_, none⟩ => some .notFound

/-- Removes a directory with everything in it, or a link. What is in a directory is gone even when
the directory itself cannot be removed. A path that led through what was in it leads nowhere then,
and so there is nothing left to remove. -/
def removeTree (t : FileTree) (p : Path) : FileTree × Option OsError :=
  match t.find p false with
  | .error e => (t, some e)
  | .ok ⟨_, none⟩ => (t, some .notFound)
  | .ok ⟨place, some (.link _)⟩ => (t.erase place, none)
  | .ok ⟨place, some .directory⟩ =>
    let emptied := t.eraseBelow place
    match emptied.removalError? p with
    | some .notFound => (emptied, none)
    | some e => (emptied, some e)
    | none => (emptied.erase place, none)
  | .ok ⟨_, some _⟩ => (t, some .notADirectory)

/-- Removes whatever a path leads to, when there is something. -/
def remove (t : FileTree) (p : Path) : FileTree :=
  match t.find p false with
  | .ok ⟨place, some (.file ..)⟩ => t.erase place
  | .ok _ => (t.removeTree p).1
  | .error _ => t

/-- A file can be read back as it was written. -/
theorem readText_of_node? {t : FileTree} {p : Path} {place : Location} {text : String}
    {executable : Bool}
    (hfind : t.find p true = .ok ⟨place, some (.file text.toUTF8 executable)⟩) :
    t.readText p = .ok text := by
  have : String.fromUTF8? text.toByteArray = some text := by
    simp [String.fromUTF8?, String.fromUTF8, text.isValidUTF8]
  simp [readText, readBytes, hfind, this]

end FileTree

end SoloBuild
