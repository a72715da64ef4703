import SoloBuild.Proofs.WrittenFiles

/-!
# The file of a synthesized config

Synthesis answers a config when its file was written, and removes earlier output after that. Which
directory goes is told by the text of the target, and where the config stands by the settings; no
check keeps the one from holding the other. This module says what is left of the file when synthesis
succeeds: all of it, unless the config stands in the directory that goes, or its path leads through
that directory. What can be read under the path is never anything else.

## Key results

- `exists_written_of_synthesize`: a synthesis that succeeds wrote its file and purged after that
- `find_purge_iff`: after a purge a path leads where it led, or nowhere
- `FileAfterPurge`, `synthesize_fileAfterPurge`: what becomes of the file of a config
- `synthesize_loses`: a config that is removed by its own synthesis
-/

namespace SoloBuild.SingleFile

open Description FileTree

variable {t after written : FileTree} {solution : Document} {name target : String}
  {projectDir p : Path} {s : Settings} {config : TransientConfig} {place : Location} {node : Node}

/-- A synthesis that succeeds wrote its file, and purged earlier output after that. -/
theorem exists_written_of_synthesize
    (h : synthesize t solution name target projectDir s = (after, .ok config)) :
    config.path = transientPath solution s ∧ config.content = compose solution name target s ∧
      ∃ written, t.writeText config.path config.content = .ok written ∧
        after = (purge written target.toList projectDir s).1 := by
  cases hwrite : t.writeText (transientPath solution s) (compose solution name target s) with
  | error e =>
    have herror : (synthesize t solution name target projectDir s).2 =
        .error (transientPath solution s, e) := synthesize_error_iff.2 ⟨rfl, hwrite⟩
    rw [h] at herror
    cases herror
  | ok written =>
    simp only [synthesize, SingleFile.written, hwrite, Prod.mk.injEq, Except.ok.injEq] at h
    obtain ⟨rfl, rfl⟩ := h
    exact ⟨rfl, rfl, written, hwrite, rfl⟩

/-- After a purge a path leads where it led, if it leads anywhere. -/
theorem find_purge_iff (target : List Char) (projectDir : Path) (s : Settings)
    (h : t.find p true = .ok ⟨place, some node⟩) :
    (purge t target projectDir s).1.find p true = .ok ⟨place, some node⟩ ↔
      ((purge t target projectDir s).1.canonicalize p).isOk = true := by
  constructor
  · intro hfind
    rw [canonicalize, hfind]
    rfl
  · intro hleads
    obtain ⟨place', node', hfind⟩ := find_of_canonicalize hleads
    -- The purge only takes away, so the path led there before.
    have hbefore := find_mono (fun _ _ => node?_of_purge) workingDir_purge.symm hfind (by simp)
    rw [hfind, ← hbefore, h]

/-- What became of the file of a config, which was written to a place, when earlier output was
purged from a directory after that. -/
structure FileAfterPurge (written after : FileTree) (dir? : Option Path) (place : Location)
    (config : TransientConfig) : Prop where
  /-- Before the purge the config could be read. -/
  readText_written : written.readText config.path = .ok config.content
  /-- The file stays exactly when it does not stand in the directory. -/
  node?_iff : after.node? place = written.node? place ↔
    ∀ dir top, dir? = some dir → written.find dir false = .ok ⟨top, some .directory⟩ →
      isWithin top place = false
  /-- The config can be read as long as its path leads anywhere, and so nothing else is ever read
  there. -/
  readText_iff : after.readText config.path = .ok config.content ↔
    (after.canonicalize config.path).isOk = true
  /-- What can be read is the file that was written. -/
  node?_of_readText : after.readText config.path = .ok config.content →
    after.node? place = written.node? place
  /-- The config can be read unless the directory holds it or is passed by its path. -/
  readText_of_holds : (∀ dir, dir? = some dir → written.holds dir config.path = false) →
    after.readText config.path = .ok config.content

/-- A purge leaves a file that was written, or its path leads nowhere. -/
theorem fileAfterPurge_of_find {target : List Char} {executable : Bool}
    (hfind : t.find config.path true =
      .ok ⟨place, some (.file config.content.toUTF8 executable)⟩) :
    FileAfterPurge t (purge t target projectDir s).1 (intermediateDir? target projectDir s) place
      config := by
  have hread := readText_of_node? hfind
  have hleads := find_purge_iff target projectDir s hfind
  have hcanonical : (purge t target projectDir s).1.readText config.path = .ok config.content →
      ((purge t target projectDir s).1.canonicalize config.path).isOk = true := by
    intro htext
    obtain ⟨place', node, hfound⟩ := exists_find_of_readText htext
    rw [canonicalize, hfound]
    rfl
  refine ⟨hread, node?_purge_iff (node?_of_find hfind).symm, ⟨hcanonical, fun hok => ?_⟩,
    fun htext => ?_, readText_purge hread⟩
  · exact readText_of_node? (hleads.2 hok)
  · have hkept := hleads.2 (hcanonical htext)
    exact (node?_of_find hkept).symm.trans (node?_of_find hfind)

/-- When synthesis succeeds, the content that it answers was written under the path that it answers,
and what became of the file after that is decided by the directory of earlier output alone. -/
theorem synthesize_fileAfterPurge (ht : t.Consistent)
    (h : synthesize t solution name target projectDir s = (after, .ok config)) :
    config.path = transientPath solution s ∧ config.content = compose solution name target s ∧
      ∃ written place, t.writeText config.path config.content = .ok written ∧
        t.placeToWrite config.path = .ok place ∧
        FileAfterPurge written after (intermediateDir? target.toList projectDir s) place
          config := by
  obtain ⟨hpath, hcontent, written, hwrite, rfl⟩ := exists_written_of_synthesize h
  obtain ⟨place, hplace, -⟩ := writeText_eq_ok_iff.1 hwrite
  have hfind := find_of_writeText ht hplace hwrite
  exact ⟨hpath, hcontent, written, place, hwrite, hplace, fileAfterPurge_of_find hfind⟩

/-- A config that stands beside the directory that is purged. -/
theorem synthesize_fileAfterPurge_sample :
    let tree := Manifest.smallTree "Game"
    let target := ".Intermediate = '.\\int\\CompileSingleFile\\App\\'"
    let settings : Settings := { transientConfig := "int/a.bff" }
    let synthesized :=
      synthesize tree ⟨⟨"/s/Game.bff"⟩, ""⟩ "CompileSingleFile" target ⟨"/s"⟩ settings
    tree.Consistent ∧ ∃ config, synthesized = (synthesized.1, .ok config) ∧
      config.purged = some ⟨"/s/./int/CompileSingleFile/"⟩ ∧
      synthesized.1.readText config.path = .ok config.content := by
  intro tree target settings synthesized
  have htree : tree.Consistent := .of_nodes (by decide +kernel) (by decide +kernel)
  have hsample : ∃ config ∈ synthesized.2.toOption,
      config.purged = some ⟨"/s/./int/CompileSingleFile/"⟩ ∧
        (synthesized.1.canonicalize config.path).isOk = true := by
    decide +kernel
  obtain ⟨config, hconfig, hpurged, hleads⟩ := hsample
  have h := Manifest.eq_ok_of_toOption hconfig
  obtain ⟨-, -, written, place, -, -, hfile⟩ := synthesize_fileAfterPurge htree h
  exact ⟨htree, config, h, hpurged, hfile.readText_iff.2 hleads⟩

/-- A config that stands in the directory of its target's output is removed by its own
synthesis. -/
theorem synthesize_loses :
    let settings : Settings := { transientConfig := "int/CompileSingleFile/a.bff" }
    let synthesized := synthesize (Manifest.smallTree "Game") ⟨⟨"/s/Game.bff"⟩, ""⟩
      "CompileSingleFile" ".Intermediate = '.\\int\\CompileSingleFile\\App\\'" ⟨"/s"⟩ settings
    ∃ config, synthesized = (synthesized.1, .ok config) ∧
      config.path = ⟨"/s/int/CompileSingleFile/a.bff"⟩ ∧
      synthesized.1.readText config.path = .error .notFound := by
  intro settings synthesized
  have hsample : ∃ config ∈ synthesized.2.toOption,
      config.path = ⟨"/s/int/CompileSingleFile/a.bff"⟩ ∧
        synthesized.1.readText config.path = .error .notFound := by
    decide +kernel
  obtain ⟨config, hconfig, hpath, hread⟩ := hsample
  exact ⟨config, Manifest.eq_ok_of_toOption hconfig, hpath, hread⟩

end SoloBuild.SingleFile
