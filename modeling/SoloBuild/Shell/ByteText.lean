import SoloBuild.Path
import SoloBuild.Text.Utf8

/-!
# Texts made of bytes

A shell does not read its texts as UTF-8: a text is a row of bytes, each of which is written here as
the character with its number. File names and arguments are turned into such texts where they come
in, and back where files are looked up.
-/

namespace SoloBuild.Shell

open Text

/-- The bytes of characters. -/
def bytesOfChars (cs : List Char) : List UInt8 := cs.map fun c => UInt8.ofNat c.toNat

/-- The bytes of a text. -/
def bytesOf (s : String) : List UInt8 := bytesOfChars s.toList

/-- The text that bytes are. -/
def textOf (bytes : List UInt8) : List Char := bytes.map fun b => Char.ofNat b.toNat

/-- The text that the bytes of a name are. -/
def byteText (name : String) : String := String.ofList (textOf name.toUTF8.toList)

/-- The name whose bytes a text has. -/
def nameOf (text : String) : String := String.ofList (decodeLossy (bytesOf text))

/-- The path whose bytes a text has. -/
def pathOf (text : String) : Path := ⟨nameOf text⟩

/-- A byte put before lines. -/
def putByte (b : UInt8) : List (List UInt8) → List (List UInt8)
  | [] => [[b]]
  | line :: rest => if b = 10 then [b] :: line :: rest else (b :: line) :: rest

/-- Bytes cut after each newline. -/
def byteLines (bytes : List UInt8) : List (List UInt8) := bytes.foldr putByte []

/-- A line without the newline that ends it. -/
def chomp (line : List UInt8) : List UInt8 :=
  if line.getLast? = some 10 then line.dropLast else line

/-- The lines of a text, without the newlines that end them. -/
def textLines (bytes : List UInt8) : List (List Char) :=
  (byteLines bytes).map fun line => textOf (chomp line)

end SoloBuild.Shell
