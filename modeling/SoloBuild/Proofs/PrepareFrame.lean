import SoloBuild.Proofs.PrepareStages
import SoloBuild.Proofs.PurgeConfined

/-!
# What a preparation leaves alone

A preparation writes one file and removes one directory, and reads files that stand wherever the
manifest and the descriptions say. Nothing keeps the two apart: a file that was read is lost when
the config is written over it, or when it stands in the directory of earlier output. This module
says that these are the only ways, and that a request whose files are still there can be prepared
again, with the same result.

## Key results

- `node?_removeTree_iff`, `node?_purge_iff`: which files are left by a removal
- `find_mono`: what is found in a tree is found in a larger one
- `Passes.of_found`: a plan depends on nothing but what the paths of its request lead to
- `prepareCompile_keeps`: which files keep their content, and when a preparation can be repeated
- `prepareCompile_loses`: a description that was read and is lost
-/

namespace SoloBuild.FileTree

variable {t larger : FileTree} {followLast : Bool} {links : Nat} {here : Location}
  {names : List String} {place : Place} {p : Path} {other : Location}

/-! ## Files and removals -/

/-- What a path leads to is what stands at the place it leads to. -/
theorem Leads.node?_eq (h : Leads t followLast links here names place) :
    place.node? = t.node? place.location := by
  induction h with
  | here => rfl
  | stay _ _ ih => exact ih
  | up _ _ ih => exact ih
  | missing _ _ hnone => exact hnone.symm
  | link _ _ hlink => exact hlink.symm
  | follow _ _ _ _ _ ih => exact ih
  | enter _ _ _ _ _ ih => exact ih

theorem node?_of_find (h : t.find p followLast = .ok place) :
    place.node? = t.node? place.location :=
  (walk_eq_ok_iff.1 (walk_of_find h)).node?_eq

/-- A path without names begins at the root. -/
theorem isAbsolute_of_namesOf (htext : p.text.toList ≠ []) (hnames : namesOf p = []) :
    p.isAbsolute = true := by
  rw [Path.isAbsolute]
  cases hchars : p.text.toList with
  | nil => exact absurd hchars htext
  | cons c cs =>
    by_cases hc : c = '/'
    · simp [hc]
    · -- The first character would belong to a name.
      have hmark : (c == '/') = false := by simpa using hc
      obtain ⟨piece, rest, hpieces⟩ :=
        List.exists_cons_of_ne_nil (Text.splitWhere_ne_nil (· == '/') cs)
      simp [namesOf, Path.segments, hchars, Text.splitWhere, hmark, hpieces] at hnames

/-- A path is followed by its names, and without names by nothing. -/
theorem steps_of_namesOf (hnames : namesOf p = []) : p.steps = [] := by
  have hsegments : (p.segments.filter fun segment => !segment.isEmpty) = [] :=
    List.map_eq_nil_iff.1 hnames
  simp [Path.steps, hsegments]

/-- A path with a separator at its end leads to directories only. -/
theorem node?_of_asksDirectory (hsep : asksDirectory p = true)
    (h : t.find p followLast = .ok place) : place.node? = some .directory := by
  have hleads := walk_eq_ok_iff.1 (walk_of_find h)
  by_cases hnames : namesOf p = []
  · have htext : p.text.toList ≠ [] := by
      intro hnil
      simp [asksDirectory, hnil] at hsep
    have hstart : t.start p = [] := if_pos (isAbsolute_of_namesOf htext hnames)
    rw [hstart, steps_of_namesOf hnames] at hleads
    cases hleads
    rfl
  · refine hleads.node?_eq_directory ?_
    rw [steps_eq_of_asksDirectory hsep hnames, List.getLast?_concat]

/-- A file is left by the removal of a directory exactly when it does not stand in it. -/
theorem node?_removeTree_iff {content : ByteArray} {executable : Bool}
    (hsep : asksDirectory p = true) (hfile : t.node? other = some (.file content executable)) :
    (t.removeTree p).1.node? other = t.node? other ↔
      ∀ top, t.find p false = .ok ⟨top, some .directory⟩ → isWithin top other = false := by
  have hroot : other ≠ [] := by
    rintro rfl
    cases hfile
  cases hfind : t.find p false with
  | error e => simp [removeTree, hfind]
  | ok place =>
    obtain ⟨top, node⟩ := place
    obtain rfl : node = some .directory := node?_of_asksDirectory hsep hfind
    -- A directory stands at the place that is removed, so the file is not that place itself.
    have hne : other ≠ top := by
      rintro rfl
      have hnode : some .directory = t.node? other := node?_of_find hfind
      rw [hfile] at hnode
      cases hnode
    have hremoved : (t.removeTree p).1.node? other =
        if isWithin top other = true then none else t.node? other := by
      have hbelow : (t.eraseBelow top).node? other =
          if isWithin top other ∧ other ≠ top then none else t.node? other :=
        node?_eraseBelow hroot
      rw [removeTree_directory hfind]
      split
      · rw [node?_erase hroot, hbelow]
        by_cases hwithin : isWithin top other = true <;> simp [hwithin]
      · rw [hbelow]
        simp [hne]
    rw [hremoved, hfile]
    constructor
    · rintro hkept _ ⟨⟩
      by_contra hwithin
      rw [if_pos (by simpa using hwithin)] at hkept
      cases hkept
    · intro houtside
      rw [houtside top rfl]
      rfl

/-- What is left by a removal was there before. -/
theorem node?_of_removeTree {node : Node} (h : (t.removeTree p).1.node? other = some node) :
    t.node? other = some node := by
  by_cases hsame : (t.removeTree p).1.node? other = t.node? other
  · rw [← hsame, h]
  · rw [(removeTree_changes hsame).1] at h
    cases h

theorem workingDir_removeTree : (t.removeTree p).1.workingDir = t.workingDir := by
  rw [removeTree]
  split <;> try rfl
  dsimp only
  split <;> rfl

/-- The limits that a path has to keep do not depend on the tree. -/
theorem find_of_walk {place' : Place} (h : t.find p followLast = .ok place)
    (hwalk : larger.walk followLast linkLimit (larger.start p) p.steps = .ok place') :
    larger.find p followLast = .ok place' := by
  rw [find] at h ⊢
  split at h
  · cases h
  · split at h
    · cases h
    · split at h
      · cases h
      · rename_i hnul hempty hlong
        rw [if_neg hnul, if_neg hempty, if_neg hlong, hwalk]

/-- What is found in a tree is found in a larger one. -/
theorem find_mono (hsub : ∀ place node, t.node? place = some node → larger.node? place = some node)
    (hdir : larger.workingDir = t.workingDir) (h : t.find p followLast = .ok place)
    (hsome : place.node? ≠ none) : larger.find p followLast = .ok place := by
  refine find_of_walk h ?_
  rw [start, hdir]
  exact ((walk_eq_ok_iff.1 (walk_of_find h)).mono hsub hsome).walk_eq

/-! ## Writing -/

/-- A file is written at the place that its path leads to. -/
theorem writeText_eq_ok_iff {text : String} {written : FileTree} :
    t.writeText p text = .ok written ↔ ∃ place, t.placeToWrite p = .ok place ∧
      written = t.put place (.file text.toUTF8 (t.isExecutableAt place)) := by
  rw [writeText, writeBytes]
  cases t.placeToWrite p with
  | error e => simp
  | ok place => simp [eq_comm]

/-! ## Reading -/

theorem canonicalize_congr (h : larger.find p true = t.find p true) :
    larger.canonicalize p = t.canonicalize p := by
  rw [canonicalize, canonicalize, h]

theorem exists_of_isOk {α : Type} {result : Except OsError α} (h : result.isOk = true) :
    ∃ value, result = .ok value := by
  cases result with
  | error e => cases h
  | ok value => exact ⟨value, rfl⟩

/-- What has a canonical path is found. -/
theorem find_of_canonicalize (h : (t.canonicalize p).isOk = true) :
    ∃ place node, t.find p true = .ok ⟨place, some node⟩ := by
  rw [canonicalize] at h
  split at h
  · cases h
  · cases h
  · rename_i place node hfind
    exact ⟨place, node, hfind⟩

theorem readText_congr (h : larger.find p true = t.find p true) :
    larger.readText p = t.readText p := by
  rw [readText, readText, readBytes, readBytes, h]

end SoloBuild.FileTree

namespace SoloBuild.SingleFile

variable {target : List Char} {projectDir dir : Path} {s : Settings} {t : FileTree}
  {place : Location}

/-! ## Files and purging -/

/-- The directory of single-file output is written with a separator at its end. -/
theorem asksDirectory_of_intermediateDir? (h : intermediateDir? target projectDir s = some dir) :
    FileTree.asksDirectory dir = true := by
  obtain ⟨value, hvalue, rfl⟩ := Option.map_eq_some_iff.1 h
  obtain ⟨line, -, hline⟩ := List.exists_of_findSome?_eq_some hvalue
  obtain ⟨front, rfl⟩ := exists_of_channelDirectory? hline
  have hends : Path.EndsWith
      ⟨String.ofList ((front ++ s.channelSegment).map fun c =>
        if c = s.pathSeparator then '/' else c)⟩
      (s.singleFileTarget.toList.map fun c => if c = s.pathSeparator then '/' else c) :=
    ⟨front.map fun c => if c = s.pathSeparator then '/' else c, by simp [Settings.channelSegment]⟩
  exact (hends.join projectDir).asksDirectory

/-- A file is left by a purge exactly when it does not stand in the directory of single-file
output. -/
theorem node?_purge_iff {content : ByteArray} {executable : Bool}
    (hfile : t.node? place = some (.file content executable)) :
    (purge t target projectDir s).1.node? place = t.node? place ↔
      ∀ dir top, intermediateDir? target projectDir s = some dir →
        t.find dir false = .ok ⟨top, some .directory⟩ → FileTree.isWithin top place = false := by
  rw [purge_fst]
  cases hdir : intermediateDir? target projectDir s with
  | none => simp
  | some dir =>
    dsimp only
    rw [FileTree.node?_removeTree_iff (asksDirectory_of_intermediateDir? hdir) hfile]
    constructor
    · rintro hkept _ top ⟨⟩
      exact hkept top
    · intro hkept top
      exact hkept dir top rfl

/-- What is left by a purge was there before. -/
theorem node?_of_purge {node : Node}
    (h : (purge t target projectDir s).1.node? place = some node) : t.node? place = some node := by
  rw [purge_fst] at h
  cases hdir : intermediateDir? target projectDir s with
  | none => simpa [hdir] using h
  | some dir => exact FileTree.node?_of_removeTree (by simpa [hdir] using h)

theorem workingDir_purge : (purge t target projectDir s).1.workingDir = t.workingDir := by
  rw [purge_fst]
  cases intermediateDir? target projectDir s with
  | none => rfl
  | some dir => exact FileTree.workingDir_removeTree

end SoloBuild.SingleFile

namespace SoloBuild.Manifest

open Description SingleFile

variable {m : Manifest} {t after : FileTree} {file : Path} {configuration : String}
  {plan : CompilePlan}

/-! ## Preparing again -/

/-- The paths that a request follows to what it reads: the file and its source, the launcher script,
and the descriptions of the project and of the solution. -/
def readPaths (m : Manifest) (file : Path) (project : ProjectInfo) (target : Target) : List Path :=
  [file, target.inputFile, m.solution.launcherPath m.settings, project.descriptionPath,
    m.solution.descriptionPath]

theorem readLauncher_congr (h : after.readText (m.solution.launcherPath m.settings) =
    t.readText (m.solution.launcherPath m.settings)) : m.readLauncher after = m.readLauncher t := by
  unfold readLauncher
  simp only [h]

theorem readDescription_congr {path : Path} (h : after.readText path = t.readText path) :
    readDescription after path = readDescription t path := by
  rw [readDescription, readDescription, h]

theorem projectForFile_congr {source : Path}
    (h : after.canonicalize source = t.canonicalize source) :
    m.projectForFile after source configuration = m.projectForFile t source configuration := by
  rw [projectForFile, projectForFile, h]

/-- A plan depends on nothing but what the paths of the request lead to. -/
theorem Passes.of_found (h : Passes m t file configuration plan)
    (hfound : ∀ p ∈ m.readPaths file plan.project plan.target,
      after.find p true = t.find p true) : Passes m after file configuration plan := by
  obtain ⟨⟨⟨⟨hsource, howner, hexternal⟩, hlauncher, htarget⟩, hdescription, hnode⟩, hsolution⟩ := h
  simp only [readPaths, List.forall_mem_cons] at hfound
  obtain ⟨hfile, hinput, hscript, hproject, hdocument, -⟩ := hfound
  have hsource' := (FileTree.canonicalize_congr hfile).trans hsource
  have howner' := (projectForFile_congr (FileTree.canonicalize_congr hinput)).trans howner
  have hlauncher' := (readLauncher_congr (FileTree.readText_congr hscript)).trans hlauncher
  have hdescription' :=
    (readDescription_congr (FileTree.readText_congr hproject)).trans hdescription
  have hsolution' := (readDescription_congr (FileTree.readText_congr hdocument)).trans hsolution
  have hlaunched := Launched.mk ⟨hsource', howner', hexternal⟩ hlauncher' htarget
  exact .plan ⟨hlaunched, hdescription', hnode⟩ hsolution'

/-! ## What a preparation leaves -/

variable {written : FileTree} {config place : Location} {text : String} {projectDir : Path}
  {target : List Char} {prepared : PreparedCompile}

/-- A file holds what it held after another was written, unless it is that one and held something
else. -/
theorem node?_written_iff {path : Path} {content : ByteArray} {executable : Bool}
    (hwrite : t.writeText path text = .ok written) (hconfig : t.placeToWrite path = .ok config)
    (hfile : t.node? place = some (.file content executable)) :
    written.node? place = some (.file content executable) ↔
      (place = config → content = text.toUTF8) := by
  obtain ⟨config', hconfig', rfl⟩ := FileTree.writeText_eq_ok_iff.1 hwrite
  obtain rfl : config' = config := Except.ok.inj (hconfig'.symm.trans hconfig)
  have hroot : place ≠ [] := by
    rintro rfl
    cases hfile
  rw [FileTree.node?_put hroot]
  split
  · -- What is written over keeps its permission to be executed.
    rename_i heq
    have hexecutable : t.isExecutableAt config' = executable := by
      rw [← heq, FileTree.isExecutableAt, hfile]
    simp [heq, hexecutable, eq_comm]
  · rename_i hne
    simp [hfile, hne]

/-- A file is left as it was by writing a config and purging earlier output, unless the config is
written over it or it stands in the directory that is purged. -/
theorem node?_purge_written_iff {path : Path} {content : ByteArray} {executable : Bool}
    (hwrite : t.writeText path text = .ok written) (hconfig : t.placeToWrite path = .ok config)
    (hfile : t.node? place = some (.file content executable)) :
    (purge written target projectDir m.settings).1.node? place = t.node? place ↔
      (place = config → content = text.toUTF8) ∧
        ∀ dir top, intermediateDir? target projectDir m.settings = some dir →
          written.find dir false = .ok ⟨top, some .directory⟩ →
          FileTree.isWithin top place = false := by
  rw [hfile, ← node?_written_iff hwrite hconfig hfile]
  constructor
  · intro hkept
    have hwritten := node?_of_purge hkept
    exact ⟨hwritten, (node?_purge_iff hwritten).1 (hkept.trans hwritten.symm)⟩
  · rintro ⟨hwritten, houtside⟩
    exact ((node?_purge_iff hwritten).2 houtside).trans hwritten

/-- What is left apart from the config was there before. -/
theorem node?_of_erase_config {path : Path} {node : Node}
    (hwrite : t.writeText path text = .ok written) (hconfig : t.placeToWrite path = .ok config)
    (h : ((purge written target projectDir m.settings).1.erase config).node? place = some node) :
    (purge written target projectDir m.settings).1.node? place = some node ∧
      t.node? place = some node := by
  by_cases hroot : place = []
  · rw [hroot] at h ⊢
    exact ⟨h, h⟩
  · rw [FileTree.node?_erase hroot] at h
    split at h
    · cases h
    · rename_i houtside
      obtain ⟨config', hconfig', rfl⟩ := FileTree.writeText_eq_ok_iff.1 hwrite
      obtain rfl : config' = config := Except.ok.inj (hconfig'.symm.trans hconfig)
      have hne : place ≠ config' := by
        rintro rfl
        exact houtside (List.isPrefixOf_iff_prefix.2 (List.prefix_refl place))
      have hwritten := node?_of_purge h
      rw [FileTree.node?_put hroot, if_neg hne] at hwritten
      exact ⟨h, hwritten⟩

/-- A path that leads somewhere without the config leads where it led before. -/
theorem find_of_erase_config {path p : Path} {node : Node}
    (hwrite : t.writeText path text = .ok written) (hconfig : t.placeToWrite path = .ok config)
    (h : ((purge written target projectDir m.settings).1.erase config).find p true =
      .ok ⟨place, some node⟩) :
    (purge written target projectDir m.settings).1.find p true = .ok ⟨place, some node⟩ ∧
      t.find p true = .ok ⟨place, some node⟩ := by
  have hdir : (purge written target projectDir m.settings).1.workingDir = t.workingDir := by
    obtain ⟨config', -, rfl⟩ := FileTree.writeText_eq_ok_iff.1 hwrite
    exact workingDir_purge
  exact ⟨FileTree.find_mono (fun _ _ hnode => (node?_of_erase_config hwrite hconfig hnode).1) rfl h
      (by simp),
    FileTree.find_mono (fun _ _ hnode => (node?_of_erase_config hwrite hconfig hnode).2) hdir.symm h
      (by simp)⟩

/-- Every path that the request reads still leads somewhere without the config, and the config can
be written again. -/
def Repeatable (m : Manifest) (file : Path) (config : Location) (after : FileTree)
    (prepared : PreparedCompile) : Prop :=
  (∀ p ∈ m.readPaths file prepared.project prepared.target,
    ((after.erase config).canonicalize p).isOk = true) ∧
  (after.placeToWrite prepared.config.path).isOk = true

instance (m : Manifest) (file : Path) (config : Location) (after : FileTree)
    (prepared : PreparedCompile) : Decidable (m.Repeatable file config after prepared) :=
  inferInstanceAs (Decidable (_ ∧ _))

/-- A preparation changes files in two ways only: it writes the config, and it removes the directory
of earlier output. A file keeps its content exactly when the config is not written over it, with
something else, and it does not stand in that directory. So a path that leads somewhere without the
config leads to what it led to before, and when that holds of all paths that the request reads, the
same request gives the same config once more. -/
theorem prepareCompile_keeps
    (h : m.prepareCompile t file configuration = (after, .ok prepared)) :
    ∃ written config, t.writeText prepared.config.path prepared.config.content = .ok written ∧
      t.placeToWrite prepared.config.path = .ok config ∧
      (∀ place content executable, t.node? place = some (.file content executable) →
        (after.node? place = t.node? place ↔
          (place = config → content = prepared.config.content.toUTF8) ∧
            ∀ dir top,
              intermediateDir? prepared.target.text.toList prepared.project.dir m.settings =
                some dir →
              written.find dir false = .ok ⟨top, some .directory⟩ →
              FileTree.isWithin top place = false)) ∧
      (∀ p place node, (after.erase config).find p true = .ok ⟨place, some node⟩ →
        after.find p true = .ok ⟨place, some node⟩ ∧ t.find p true = .ok ⟨place, some node⟩) ∧
      (m.Repeatable file config after prepared → ∃ purged,
        (m.prepareCompile after file configuration).2 = .ok { prepared with
          config := ⟨prepared.config.path, prepared.config.content, purged⟩ }) := by
  obtain ⟨plan, written, hpasses, hwrite, rfl, rfl⟩ := exists_of_prepareCompile_eq_ok h
  obtain ⟨config, hconfig, -⟩ := FileTree.writeText_eq_ok_iff.1 hwrite
  refine ⟨written, config, hwrite, hconfig,
    fun place content executable hfile => node?_purge_written_iff hwrite hconfig hfile,
    fun p place node hleft => find_of_erase_config hwrite hconfig hleft, ?_⟩
  rintro ⟨hreads, hagain⟩
  have hpasses' := hpasses.of_found fun p hp => by
    obtain ⟨place, node, hleft⟩ := FileTree.find_of_canonicalize (hreads p hp)
    obtain ⟨hafter, hbefore⟩ := find_of_erase_config hwrite hconfig hleft
    exact hafter.trans hbefore.symm
  obtain ⟨place, hplace⟩ := FileTree.exists_of_isOk hagain
  obtain ⟨again, hwrite'⟩ : ∃ again,
      (purge written plan.target.text.toList plan.project.dir m.settings).1.writeText
        (transientPath plan.solution m.settings)
        (compose plan.solution plan.target.name plan.target.text m.settings) = .ok again :=
    ⟨_, FileTree.writeText_eq_ok_iff.2 ⟨place, hplace, rfl⟩⟩
  rw [hpasses'.prepareCompile_of_written hwrite']
  exact ⟨_, rfl⟩

/-- An answer that has a value is a success. -/
theorem eq_ok_of_toOption {α ε β : Type} {answer : α × Except ε β} {value : β}
    (h : value ∈ answer.2.toOption) : answer = (answer.1, .ok value) := by
  obtain ⟨after, result⟩ := answer
  cases result with
  | error => cases h
  | ok => rw [Option.some.inj h]

theorem Passes.solution_path (h : Passes m t file configuration plan) :
    plan.solution.path = m.solution.descriptionPath := by
  obtain ⟨-, hsolution⟩ := h
  rw [readDescription] at hsolution
  split at hsolution
  · cases hsolution
  · cases hsolution
    rfl

theorem eq_of_toUTF8_eq {a b : String} (h : a.toUTF8 = b.toUTF8) : a = b :=
  String.toByteArray_inj.1 h

/-- A config begins with a notice. -/
theorem compose_ne_empty {solution : Document} {name target : String} {s : Settings} :
    compose solution name target s ≠ "" := by
  intro hempty
  have hlist := congrArg String.toList hempty
  simp only [compose, String.toList_ofList, String.toList_empty, List.append_eq_nil_iff,
    reduceCtorEq, and_false, false_and] at hlist

/-- A solution of one project, in the directory of that project. -/
def smallSolution (name : String) : Manifest where
  path := ⟨"/s/fbtools.toml"⟩
  solution := { name, dir := ⟨"/s"⟩ }
  settings := {}
  projects := [{
    name := "App"
    dir := ⟨"/s"⟩
    buildCommands := [("Debug", "\"FBuild.bat\" X")]
    debugger := none }]

/-- The files of a small solution, with the output of an earlier single-file build. -/
def smallTree (name : String) : FileTree where
  nodes := [(["s"], .directory), (["s", "int"], .directory),
    (["s", "int", "CompileSingleFile"], .directory),
    (["s", "FBuild.bat"], .file "\"b\"".toUTF8 false),
    (["s", name ++ ".bff"], .file "".toUTF8 false),
    (["s", "App.bff"], .file "Library('X')\x7b\n.Intermediate='.\\int\\'\x7d".toUTF8 false),
    (["s", "a.cpp"], .file "".toUTF8 false)]

/-- A solution is prepared again once its earlier output is removed. -/
theorem prepareCompile_keeps_sample :
    ∃ after prepared,
      (smallSolution "Game").prepareCompile (smallTree "Game") ⟨"/s/a.cpp"⟩ "Debug" =
        (after, .ok prepared) ∧
      prepared.config.purged = some ⟨"/s/./int/CompileSingleFile/"⟩ ∧
      ∃ purged, ((smallSolution "Game").prepareCompile after ⟨"/s/a.cpp"⟩ "Debug").2 =
        .ok { prepared with
          config := ⟨prepared.config.path, prepared.config.content, purged⟩ } := by
  have hsample : ∃ prepared ∈ ((smallSolution "Game").prepareCompile (smallTree "Game")
        ⟨"/s/a.cpp"⟩ "Debug").2.toOption,
      prepared.config.purged = some ⟨"/s/./int/CompileSingleFile/"⟩ ∧
        (smallTree "Game").placeToWrite prepared.config.path =
          .ok ["s", "CompileSingleFile.bff"] ∧
        (smallSolution "Game").Repeatable ⟨"/s/a.cpp"⟩ ["s", "CompileSingleFile.bff"]
          ((smallSolution "Game").prepareCompile (smallTree "Game") ⟨"/s/a.cpp"⟩ "Debug").1
          prepared := by
    decide +kernel
  obtain ⟨prepared, hprepared, hpurged, hplace, hrepeatable⟩ := hsample
  have h := eq_ok_of_toOption hprepared
  obtain ⟨written, config, -, hconfig, -, -, hagain⟩ := prepareCompile_keeps h
  have hsame := Except.ok.inj (hconfig.symm.trans hplace)
  rw [hsame] at hagain
  exact ⟨_, prepared, h, hpurged, hagain hrepeatable⟩

/-- A solution whose description has the name of the config loses its description. -/
theorem prepareCompile_loses :
    ∃ after prepared,
      (smallSolution "CompileSingleFile").prepareCompile (smallTree "CompileSingleFile")
          ⟨"/s/a.cpp"⟩ "Debug" = (after, .ok prepared) ∧
        ((smallTree "CompileSingleFile").find
          (smallSolution "CompileSingleFile").solution.descriptionPath true).map (·.location) =
            .ok ["s", "CompileSingleFile.bff"] ∧
        after.node? ["s", "CompileSingleFile.bff"] ≠
          (smallTree "CompileSingleFile").node? ["s", "CompileSingleFile.bff"] := by
  have hsample : ((smallSolution "CompileSingleFile").prepareCompile
      (smallTree "CompileSingleFile") ⟨"/s/a.cpp"⟩ "Debug").2.toOption.isSome = true := by
    decide +kernel
  obtain ⟨prepared, hprepared⟩ := Option.isSome_iff_exists.1 hsample
  have h := eq_ok_of_toOption hprepared
  refine ⟨_, prepared, h, by decide +kernel, ?_⟩
  obtain ⟨plan, written, hpasses, hwrite, hafter, -⟩ := exists_of_prepareCompile_eq_ok h
  have hfile : (smallTree "CompileSingleFile").node? ["s", "CompileSingleFile.bff"] =
      some (.file "".toUTF8 false) := by
    simp [smallTree, FileTree.node?, List.lookup_cons]
  have hconfig : (smallTree "CompileSingleFile").placeToWrite
      (transientPath plan.solution (smallSolution "CompileSingleFile").settings) =
        .ok ["s", "CompileSingleFile.bff"] := by
    rw [transientPath, hpasses.solution_path]
    decide +kernel
  rw [Ne, hafter, node?_purge_written_iff hwrite hconfig hfile]
  rintro ⟨hsame, -⟩
  exact compose_ne_empty (eq_of_toUTF8_eq (hsame rfl).symm)

end SoloBuild.Manifest
