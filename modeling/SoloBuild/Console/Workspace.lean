import SoloBuild.FileTree.Layout
import SoloBuild.Text.Lines

/-!
# Workspace descriptions

The files that a command works on, described by lines of text: `directory`, `file` or `script` with
a path after it, `link` with a path and, on the next content line, the target. Lines that begin with
a bar are the content of the entry before them, without the bar. Other lines do not count.
-/

namespace SoloBuild.Console

open Text

/-- The rest of a line that begins with a word and a blank. -/
def afterKeyword? (keyword : String) (line : List Char) : Option Path :=
  (afterFront? (keyword.toList ++ [' ']) line).map fun rest => ⟨String.ofList rest⟩

/-- The content lines that lines begin with, without their bars, and the lines after them. -/
def contentLines : List (List Char) → List (List Char) × List (List Char)
  | ('|' :: line) :: rest =>
    let (lines, after) := contentLines rest
    (line :: lines, after)
  | rest => ([], rest)

/-- The text of content lines. -/
def contentOf (lines : List (List Char)) : List Char :=
  lines.flatMap (· ++ ['\n'])

/-- The entry that a line names, given its content lines. -/
def entryOf? (line : List Char) (content : List (List Char)) : Option LayoutEntry :=
  let bytes := (String.ofList (contentOf content)).toUTF8
  (((afterKeyword? "directory" line).map .directory).or
    ((afterKeyword? "file" line).map fun p => .file p bytes false)).or
    (((afterKeyword? "script" line).map fun p => .file p bytes true).or
      ((afterKeyword? "link" line).map fun p => .link p ⟨String.ofList (content.headD [])⟩))

/-- The entries that lines describe. The first argument bounds their number. -/
def entriesOf : Nat → List (List Char) → List LayoutEntry
  | 0, _ => []
  | _ + 1, [] => []
  | n + 1, line :: rest =>
    let (content, after) := contentLines rest
    (entryOf? line content).toList ++ entriesOf n after

/-- The entries of a described workspace. -/
def workspaceEntries (text : String) : List LayoutEntry :=
  let lines := lines text.toList
  entriesOf lines.length lines

end SoloBuild.Console
