import Mathlib.Data.List.Induction
import SoloBuild.Solution.Manifest

/-!
# The project a file belongs to

A file belongs to the innermost project: of the project directories that its path begins with,
component by component, the one with the most components counts, and of equal directories the one
that is declared last. Directories that differ only in separators and `.` segments are equal. The
order in which projects are declared matters for nothing else, and neither do projects elsewhere.

## Key results

- `Manifest.owns_concat`: what one more project changes
- `Manifest.innermost?_eq_some_iff`: the project that is found is the one that owns the file
- `Manifest.projectForFile_eq_ok_iff`, `Manifest.projectForFile_eq_noOwningProject_iff`,
  `Manifest.projectForFile_eq_noBuildCommand_iff`: when each answer is given
- `Manifest.projectForFile_owner`: the answers for a file, by the project that owns it
-/

namespace SoloBuild

open Text

/-- A path without links and dots when it leads somewhere, and as it is written otherwise. -/
def FileTree.resolved (t : FileTree) (p : Path) : Path :=
  match t.canonicalize p with
  | .ok canonical => canonical
  | .error _ => p

namespace Manifest

variable {projects : List ProjectEntry} {file : Path} {p q : ProjectEntry}

/-! ## Owners -/

/-- A project owns a file: the file's path begins with its directory, no project with such a
directory is deeper, and none that is declared later has the same directory. -/
structure Owns (projects : List ProjectEntry) (file : Path) (p : ProjectEntry) : Prop where
  front : p.dir.components <+: file.components
  deepest : ∀ other ∈ projects, other.dir.components <+: file.components →
    other.dir.components.length ≤ p.dir.components.length
  last : ∃ before after, projects = before ++ p :: after ∧
    ∀ later ∈ after, later.dir.components ≠ p.dir.components

theorem not_owns_nil : ¬ Owns [] file p := by
  rintro ⟨-, -, before, after, hsplit, -⟩
  simp at hsplit

/-- One more project owns a file when it is at least as deep as all before it; otherwise the file
keeps its owner. -/
theorem owns_concat :
    Owns (projects ++ [q]) file p ↔
      (q.dir.components <+: file.components ∧ p = q ∧
        ∀ other ∈ projects, other.dir.components <+: file.components →
          other.dir.components.length ≤ q.dir.components.length) ∨
      (Owns projects file p ∧ (q.dir.components <+: file.components →
        q.dir.components.length < p.dir.components.length)) := by
  constructor
  · rintro ⟨hfront, hdeepest, before, after, hsplit, hlast⟩
    rw [List.forall_mem_append, List.forall_mem_singleton] at hdeepest
    rcases List.eq_nil_or_concat after with rfl | ⟨after, last, rfl⟩
    · obtain ⟨rfl, heq⟩ := List.append_inj' hsplit rfl
      obtain rfl := List.singleton_inj.1 heq
      exact .inl ⟨hfront, rfl, hdeepest.1⟩
    · rw [List.concat_eq_append, ← List.cons_append, ← List.append_assoc] at hsplit
      obtain ⟨rfl, heq⟩ := List.append_inj' hsplit rfl
      obtain rfl := List.singleton_inj.1 heq
      rw [List.concat_eq_append, List.forall_mem_append, List.forall_mem_singleton] at hlast
      refine .inr ⟨⟨hfront, hdeepest.1, before, after, rfl, hlast.1⟩, fun hq => ?_⟩
      -- Of two fronts of one path with the same length, each is the other.
      refine Nat.lt_of_le_of_ne (hdeepest.2 hq) fun hlength => hlast.2 ?_
      exact (List.prefix_of_prefix_length_le hq hfront (Nat.le_of_eq hlength)).eq_of_length hlength
  · rintro (⟨hq, rfl, hdeepest⟩ | ⟨⟨hfront, hdeepest, before, after, rfl, hlast⟩, hq⟩)
    · refine ⟨hq, ?_, projects, [], rfl, nofun⟩
      rw [List.forall_mem_append, List.forall_mem_singleton]
      exact ⟨hdeepest, fun _ => Nat.le_refl _⟩
    · refine ⟨hfront, ?_, before, after ++ [q], by simp, ?_⟩
      · rw [List.forall_mem_append, List.forall_mem_singleton]
        exact ⟨hdeepest, fun hq' => Nat.le_of_lt (hq hq')⟩
      · rw [List.forall_mem_append, List.forall_mem_singleton]
        refine ⟨hlast, fun heq => ?_⟩
        have hlt := hq (heq ▸ hfront)
        rw [heq] at hlt
        exact Nat.lt_irrefl _ hlt

/-- The owner bounds how deep the directories are that the file's path begins with. -/
theorem Owns.forall_le_iff (h : Owns projects file p) {n : Nat} :
    (∀ other ∈ projects, other.dir.components <+: file.components →
        other.dir.components.length ≤ n) ↔ p.dir.components.length ≤ n := by
  obtain ⟨before, after, hsplit, -⟩ := h.last
  have hmem : p ∈ projects := by simp [hsplit]
  exact ⟨fun hall => hall p hmem h.front,
    fun hle other hother hfront => Nat.le_trans (h.deepest other hother hfront) hle⟩

/-! ## The search -/

/-- The last project takes the place of the one that was found before it, unless that one is
deeper. -/
theorem innermost?_concat :
    innermost? (projects ++ [q]) file =
      if file.startsWith q.dir then deeper (innermost? projects file) q
      else innermost? projects file := by
  rw [innermost?, List.filter_append, List.foldl_append, ← innermost?]
  cases hq : file.startsWith q.dir <;> simp [hq]

/-- The project that is found is the one that owns the file. -/
theorem innermost?_eq_some_iff : innermost? projects file = some p ↔ Owns projects file p := by
  induction projects using List.reverseRecOn generalizing p with
  | nil => exact iff_of_false nofun not_owns_nil
  | append_singleton projects q ih =>
    rw [innermost?_concat, owns_concat, ← Path.startsWith_iff]
    cases hq : file.startsWith q.dir with
    | false => simp [ih]
    | true =>
      cases hbest : innermost? projects file with
      | none =>
        -- No earlier project owns the file, and no earlier directory is a front of its path.
        have hnone : ¬ Owns projects file p := fun howns => by
          rw [← ih, hbest] at howns
          cases howns
        have hfronts := innermost?_eq_none_iff.1 hbest
        have hall : ∀ other ∈ projects, other.dir.components <+: file.components →
            other.dir.components.length ≤ q.dir.components.length := fun other hother hfront => by
          rw [← Path.startsWith_iff, hfronts other hother] at hfront
          cases hfront
        simp only [if_true, deeper, Option.some.injEq, true_and, hnone, false_and, or_false]
        exact ⟨fun heq => ⟨heq.symm, hall⟩, fun h => h.1.symm⟩
      | some best =>
        have howns := ih.1 hbest
        have hunique : Owns projects file p ↔ p = best := by
          rw [← ih, hbest, Option.some.injEq, eq_comm]
        rw [howns.forall_le_iff, hunique, if_pos rfl, deeper]
        by_cases hlt : depth q < depth best
        · have hnot : ¬ best.dir.components.length ≤ q.dir.components.length := Nat.not_le.2 hlt
          rw [if_pos hlt, Option.some.injEq]
          simp only [hnot, and_false, false_or]
          exact ⟨fun heq => ⟨heq.symm, fun _ => heq ▸ hlt⟩, fun h => h.1.symm⟩
        · have hle : best.dir.components.length ≤ q.dir.components.length := Nat.not_lt.1 hlt
          rw [if_neg hlt, Option.some.injEq]
          simp only [hle, and_true, true_and, true_imp_iff]
          refine ⟨fun heq => .inl heq.symm, ?_⟩
          rintro (heq | ⟨rfl, hlt'⟩)
          · exact heq.symm
          · exact absurd hlt' hlt

/-- A project whose directory is no front of the file's path is not looked at. -/
theorem innermost?_insert (h : ¬ q.dir.components <+: file.components)
    (before after : List ProjectEntry) :
    innermost? (before ++ q :: after) file = innermost? (before ++ after) file := by
  have hnot : file.startsWith q.dir = false := Bool.eq_false_iff.2 (mt Path.startsWith_iff.1 h)
  simp [innermost?, hnot]

theorem innermost?_eq_none_iff_not_prefix :
    innermost? projects file = none ↔
      ∀ p ∈ projects, ¬ p.dir.components <+: file.components := by
  rw [innermost?_eq_none_iff]
  exact forall₂_congr fun p _ => by rw [← Path.startsWith_iff, Bool.not_eq_true]

/-- A file whose path begins with some project directory has one owner. -/
theorem existsUnique_owns (h : ∃ p ∈ projects, p.dir.components <+: file.components) :
    ∃! p, Owns projects file p := by
  obtain ⟨owner, howner⟩ : ∃ owner, innermost? projects file = some owner := by
    rw [← Option.ne_none_iff_exists', ne_eq, innermost?_eq_none_iff_not_prefix]
    obtain ⟨p, hp, hfront⟩ := h
    exact fun hnone => hnone p hp hfront
  refine ⟨owner, innermost?_eq_some_iff.1 howner, fun other hother => ?_⟩
  exact Option.some.inj ((innermost?_eq_some_iff.2 hother).symm.trans howner)

/-! ## The answers for a file -/

variable (m : Manifest) (t : FileTree) (configuration : String)

/-- A project answers with its build command for the configuration, or that it has none. -/
theorem info_cases (p : ProjectEntry) :
    (∃ command, p.buildCommands.lookup configuration = some command ∧
        info p configuration = .ok ⟨p.name, p.dir, command, p.debugger⟩) ∨
      (p.buildCommands.lookup configuration = none ∧
        info p configuration = .error (.noBuildCommand p.name configuration)) := by
  rw [info]
  cases p.buildCommands.lookup configuration with
  | none => exact .inr ⟨rfl, rfl⟩
  | some command => exact .inl ⟨command, rfl, rfl⟩

theorem projectForFile_eq : m.projectForFile t file configuration =
    match innermost? m.projects (t.resolved file) with
    | none => .error (.noOwningProject (t.resolved file))
    | some owner => info owner configuration := rfl

/-- The answer is a project exactly when it owns the file and has a build command. -/
theorem projectForFile_eq_ok_iff {answer : ProjectInfo} :
    m.projectForFile t file configuration = .ok answer ↔
      ∃ p command, Owns m.projects (t.resolved file) p ∧
        p.buildCommands.lookup configuration = some command ∧
        answer = ⟨p.name, p.dir, command, p.debugger⟩ := by
  simp only [← innermost?_eq_some_iff, projectForFile_eq]
  cases innermost? m.projects (t.resolved file) with
  | none => simp
  | some owner =>
    obtain ⟨command, hlookup, hinfo⟩ | ⟨hlookup, hinfo⟩ := info_cases configuration owner
    · simp [hlookup, hinfo, eq_comm]
    · simp [hlookup, hinfo]

/-- The file has no owner exactly when its path begins with no project directory. -/
theorem projectForFile_eq_noOwningProject_iff {path : Path} :
    m.projectForFile t file configuration = .error (.noOwningProject path) ↔
      path = t.resolved file ∧
        ∀ p ∈ m.projects, ¬ p.dir.components <+: (t.resolved file).components := by
  rw [← innermost?_eq_none_iff_not_prefix, projectForFile_eq]
  cases innermost? m.projects (t.resolved file) with
  | none => simp [eq_comm]
  | some owner =>
    obtain ⟨command, -, hinfo⟩ | ⟨-, hinfo⟩ := info_cases configuration owner
    · simp [hinfo]
    · simp [hinfo]

/-- A build command is missing exactly when the owner of the file has none. -/
theorem projectForFile_eq_noBuildCommand_iff {name missing : String} :
    m.projectForFile t file configuration = .error (.noBuildCommand name missing) ↔
      missing = configuration ∧ ∃ p, Owns m.projects (t.resolved file) p ∧ p.name = name ∧
        p.buildCommands.lookup configuration = none := by
  simp only [← innermost?_eq_some_iff, projectForFile_eq]
  cases innermost? m.projects (t.resolved file) with
  | none => simp
  | some owner =>
    obtain ⟨command, hlookup, hinfo⟩ | ⟨hlookup, hinfo⟩ := info_cases configuration owner
    · refine iff_of_false (by simp [hinfo]) ?_
      rintro ⟨-, _, ⟨⟩, -, hnone⟩
      cases hlookup.symm.trans hnone
    · simp only [hinfo, Except.error.injEq, HostError.noBuildCommand.injEq]
      constructor
      · rintro ⟨rfl, rfl⟩
        exact ⟨rfl, owner, rfl, rfl, hlookup⟩
      · rintro ⟨rfl, _, ⟨⟩, rfl, -⟩
        exact ⟨rfl, rfl⟩

/-- A file that exists is looked up under its path without links and dots. It belongs to the
innermost project, of which there is one as soon as its path begins with any project directory. The
answer is that project when it has a build command for the configuration, whatever the projects
around it have, and no project when there is none; a project whose directory the path does not begin
with can be declared anywhere without changing it. -/
theorem projectForFile_owner (file : Path) :
    ((∃ p ∈ m.projects, p.dir.components <+: (t.resolved file).components) →
        ∃! p, Owns m.projects (t.resolved file) p) ∧
      (∀ answer, m.projectForFile t file configuration = .ok answer ↔
        ∃ p command, Owns m.projects (t.resolved file) p ∧
          p.buildCommands.lookup configuration = some command ∧
          answer = ⟨p.name, p.dir, command, p.debugger⟩) ∧
      (∀ path, m.projectForFile t file configuration = .error (.noOwningProject path) ↔
        path = t.resolved file ∧
          ∀ p ∈ m.projects, ¬ p.dir.components <+: (t.resolved file).components) ∧
      (∀ name missing,
        m.projectForFile t file configuration = .error (.noBuildCommand name missing) ↔
          missing = configuration ∧ ∃ p, Owns m.projects (t.resolved file) p ∧ p.name = name ∧
            p.buildCommands.lookup configuration = none) ∧
      ∀ before added after, m.projects = before ++ after →
        ¬ added.dir.components <+: (t.resolved file).components →
          { m with projects := before ++ added :: after }.projectForFile t file configuration =
            m.projectForFile t file configuration := by
  refine ⟨existsUnique_owns, fun _ => projectForFile_eq_ok_iff m t configuration,
    fun _ => projectForFile_eq_noOwningProject_iff m t configuration,
    fun _ _ => projectForFile_eq_noBuildCommand_iff m t configuration, ?_⟩
  intro before added after hprojects hadded
  rw [projectForFile_eq, projectForFile_eq, hprojects, innermost?_insert hadded]

/-- Of a directory that is declared twice the later project owns the file, and its answer stands
although the project around it has a build command. A directory whose name merely begins the name of
another one is no front of the path. -/
theorem projectForFile_owner_sample :
    let outer : ProjectEntry := ⟨"Outer", ⟨"/src"⟩, none, [("Debug", "make outer")]⟩
    let first : ProjectEntry := ⟨"First", ⟨"/src/Engine"⟩, none, [("Debug", "make first")]⟩
    let last : ProjectEntry := ⟨"Last", ⟨"/src/./Engine/"⟩, none, []⟩
    let added : ProjectEntry := ⟨"Added", ⟨"/src/Eng"⟩, none, [("Debug", "make added")]⟩
    let m : Manifest := ⟨⟨"m.toml"⟩, ⟨"Game", ⟨"/src"⟩⟩, {}, [first, last, outer]⟩
    let file : Path := ⟨"/src//Engine/main.cpp"⟩
    m.projects = [first] ++ [last, outer] ∧
      ¬ added.dir.components <+: (FileTree.resolved {} file).components ∧
      { m with projects := [first] ++ added :: [last, outer] }.projectForFile {} file "Debug" =
        .error (.noBuildCommand "Last" "Debug") := by
  intro outer first last added m file
  have hprojects : m.projects = [first] ++ [last, outer] := rfl
  have hadded : ¬ added.dir.components <+: (FileTree.resolved {} file).components := by
    decide +kernel
  have howns : Owns m.projects (FileTree.resolved {} file) last :=
    innermost?_eq_some_iff.1 (by decide +kernel)
  obtain ⟨-, -, -, hlacks, hinsert⟩ := projectForFile_owner m {} "Debug" file
  refine ⟨hprojects, hadded, ?_⟩
  rw [hinsert [first] added [last, outer] hprojects hadded]
  exact (hlacks "Last" "Debug").2 ⟨rfl, last, howns, rfl, rfl⟩

end Manifest

end SoloBuild
