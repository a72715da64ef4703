import SoloBuild.FileTree.Files
import SoloBuild.SingleFile.Config
import SoloBuild.SingleFile.Target

/-!
# Writing transient configs

Synthesis writes the transient config of a target and removes what earlier single-file builds of
that target left behind. The removal happens whether or not the config could be written, and never
decides about success.

- `synthesize_error_iff`: synthesis fails exactly when the config cannot be written.
-/

namespace SoloBuild.SingleFile

open Description

/-- A transient config that was written. -/
structure TransientConfig where
  path : Path
  content : String
  /-- The directory of earlier output that was removed. -/
  purged : Option Path
  deriving DecidableEq, Repr

/-- Removes the directory that single-file builds of a target write to. The answer names it when it
was removed completely. -/
def purge (t : FileTree) (target : List Char) (projectDir : Path) (s : Settings) :
    FileTree × Option Path :=
  match intermediateDir? target projectDir s with
  | none => (t, none)
  | some dir =>
    match t.removeTree dir with
    | (t, none) => (t, some dir)
    | (t, some _) => (t, none)

/-- The tree after writing a file, or after failing to. -/
def written (t : FileTree) (path : Path) (content : String) : FileTree × Option OsError :=
  match t.writeText path content with
  | .ok t => (t, none)
  | .error e => (t, some e)

/-- Writes the transient config of a target and removes earlier output. A failure names the path
that could not be written. -/
def synthesize (t : FileTree) (solution : Document) (name target : String) (projectDir : Path)
    (s : Settings) : FileTree × Except (Path × OsError) TransientConfig :=
  let path := transientPath solution s
  let content := compose solution name target s
  let afterWrite := written t path content
  -- Earlier output goes even when the config could not be written.
  let afterPurge := purge afterWrite.1 target.toList projectDir s
  (afterPurge.1,
    match afterWrite.2 with
    | some e => .error (path, e)
    | none => .ok { path, content, purged := afterPurge.2 })

/-- Synthesis fails exactly when the config cannot be written. -/
theorem synthesize_error_iff {t : FileTree} {solution : Document} {name target : String}
    {projectDir : Path} {s : Settings} {path : Path} {e : OsError} :
    (synthesize t solution name target projectDir s).2 = .error (path, e) ↔
      path = transientPath solution s ∧
        t.writeText path (compose solution name target s) = .error e := by
  unfold synthesize written
  generalize compose solution name target s = content
  cases h : t.writeText (transientPath solution s) content with
  | ok t' =>
    simp only [h, reduceCtorEq, false_iff, not_and]
    intro hpath hwrite
    rw [hpath, h] at hwrite
    exact nomatch hwrite
  | error e' =>
    simp only [h, Except.error.injEq, Prod.mk.injEq]
    constructor
    · rintro ⟨rfl, rfl⟩; exact ⟨rfl, h⟩
    · rintro ⟨rfl, hwrite⟩
      rw [h] at hwrite
      exact ⟨rfl, Except.error.inj hwrite⟩

end SoloBuild.SingleFile
