import Mathlib.Data.List.Forall2
import SoloBuild.Proofs.CallSteps
import SoloBuild.Proofs.PrepareFrame

/-!
# What becomes of a selection

A selection is a list of project names. Each of them is judged by itself, also when it stands in the
list more than once: it contributes the target that its build command names, or the sink is told in
one line why it does not. The targets go into one command in the order of the list; without any, the
default build is to be run.

## Key results

- `judged_iff`: the rules give every name one verdict
- `forall₂_judged_iff`: the verdicts on a list of names
- `buildSelection_accounts`: what is built and what the sink is told, by the verdicts
-/

namespace SoloBuild

/-- What becomes of an entry of a selection. -/
inductive Verdict where
  /-- It contributes a target. -/
  | target (name : String)
  /-- It contributes nothing, and the sink is told why. -/
  | skipped (message : String)
  deriving DecidableEq, Repr

namespace Verdict

def target? : Verdict → Option String
  | target name => some name
  | skipped _ => none

def message? : Verdict → Option String
  | target _ => none
  | skipped message => some message

end Verdict

namespace Manifest

variable (m : Manifest) (configuration name : String)

/-! ## The rules -/

/-- The first project with the name is built by this command. -/
def IsBuiltBy (command : String) : Prop :=
  ∃ entry, m.projects.find? (·.name = name) = some entry ∧
    entry.buildCommands.lookup configuration = some command

/-- The project exists, has a build command for the configuration, and this command holds the marker
of the launcher and names the target. -/
def Contributes (target : String) : Prop :=
  ∃ command, m.IsBuiltBy configuration name command ∧
    m.settings.launcherMarker.toList <:+: command.toList ∧ Launcher.targetOf command = .ok target

/-- The verdict on a name. -/
inductive Judged : Verdict → Prop
  | unknown (unknown : ∀ entry ∈ m.projects, entry.name ≠ name) :
    Judged (.skipped ("Skipping " ++ name ++ ": " ++ (HostError.unknownProject name).message))
  | noBuildCommand {entry : ProjectEntry} (first : m.projects.find? (·.name = name) = some entry)
      (lacks : entry.buildCommands.lookup configuration = none) :
    Judged (.skipped ("Skipping " ++ name ++ ": " ++
      (HostError.noBuildCommand name configuration).message))
  | notLaunched {command : String} (built : m.IsBuiltBy configuration name command)
      (unmarked : ¬ m.settings.launcherMarker.toList <:+: command.toList) :
    Judged (.skipped ("Skipping " ++ name ++ ": not built through " ++ m.settings.launcherMarker))
  | noTarget {command : String} {reason : LauncherError}
      (built : m.IsBuiltBy configuration name command)
      (marked : m.settings.launcherMarker.toList <:+: command.toList)
      (unnamed : Launcher.targetOf command = .error reason) :
    Judged (.skipped ("Error: " ++ reason.message))
  | contributes {target : String} (contributes : m.Contributes configuration name target) :
    Judged (.target target)

/-- The verdict that is reached on a name. -/
def verdict : Verdict :=
  match m.selectionEntry configuration name with
  | .ok target => .target target
  | .error message => .skipped message

variable {m configuration name}

/-! ## The verdicts -/

theorem verdict_of_unknown (h : m.projects.find? (·.name = name) = none) :
    m.verdict configuration name =
      .skipped ("Skipping " ++ name ++ ": " ++ (HostError.unknownProject name).message) := by
  rw [verdict, selectionEntry, project, h]

theorem verdict_of_noBuildCommand {entry : ProjectEntry}
    (hfirst : m.projects.find? (·.name = name) = some entry)
    (hlacks : entry.buildCommands.lookup configuration = none) :
    m.verdict configuration name = .skipped ("Skipping " ++ name ++ ": " ++
      (HostError.noBuildCommand name configuration).message) := by
  have hname : entry.name = name := by simpa using List.find?_some hfirst
  rw [verdict, selectionEntry, project, hfirst]
  dsimp only
  rw [info, hlacks, hname]

/-- The marker is looked for as it stands. -/
theorem usesLauncher_iff {command : String} :
    Launcher.usesLauncher command m.settings.launcherMarker = true ↔
      m.settings.launcherMarker.toList <:+: command.toList :=
  Text.occursIn_iff

/-- A project that has a build command is judged by it. -/
theorem verdict_of_isBuiltBy {command : String} (h : m.IsBuiltBy configuration name command) :
    m.verdict configuration name =
      if Launcher.usesLauncher command m.settings.launcherMarker then
        match Launcher.targetOf command with
        | .ok target => .target target
        | .error reason => .skipped ("Error: " ++ reason.message)
      else
        .skipped ("Skipping " ++ name ++ ": not built through " ++ m.settings.launcherMarker) := by
  obtain ⟨entry, hfirst, hcommand⟩ := h
  rw [verdict, selectionEntry, project, hfirst]
  dsimp only
  rw [info, hcommand]
  dsimp only
  rw [isExternal]
  by_cases huses : Launcher.usesLauncher command m.settings.launcherMarker = true
  · rw [if_pos huses, if_pos huses]
    cases Launcher.targetOf command <;> rfl
  · rw [if_neg huses, if_neg huses]

/-- The verdict that is reached follows the rules. -/
theorem judged_verdict (m : Manifest) (configuration name : String) :
    Judged m configuration name (m.verdict configuration name) := by
  cases hfirst : m.projects.find? (·.name = name) with
  | none =>
    rw [verdict_of_unknown hfirst]
    exact .unknown fun entry hentry => by simpa using List.find?_eq_none.1 hfirst entry hentry
  | some entry =>
    cases hcommand : entry.buildCommands.lookup configuration with
    | none =>
      rw [verdict_of_noBuildCommand hfirst hcommand]
      exact .noBuildCommand hfirst hcommand
    | some command =>
      have hbuilt : m.IsBuiltBy configuration name command := ⟨entry, hfirst, hcommand⟩
      rw [verdict_of_isBuiltBy hbuilt]
      split
      · next huses =>
        have hmarked := usesLauncher_iff.1 huses
        cases htarget : Launcher.targetOf command with
        | ok target => exact .contributes ⟨command, hbuilt, hmarked, htarget⟩
        | error reason => exact .noTarget hbuilt hmarked htarget
      · next huses => exact .notLaunched hbuilt (mt usesLauncher_iff.2 huses)

/-- The rules give every name one verdict, the one that is reached. -/
theorem judged_iff {v : Verdict} :
    Judged m configuration name v ↔ v = m.verdict configuration name := by
  constructor
  · intro h
    cases h with
    | unknown unknown =>
      refine (verdict_of_unknown (List.find?_eq_none.2 fun entry hentry => ?_)).symm
      simpa using unknown entry hentry
    | noBuildCommand first lacks => exact (verdict_of_noBuildCommand first lacks).symm
    | notLaunched built unmarked =>
      rw [verdict_of_isBuiltBy built, if_neg (mt usesLauncher_iff.1 unmarked)]
    | noTarget built marked unnamed =>
      rw [verdict_of_isBuiltBy built, if_pos (usesLauncher_iff.2 marked), unnamed]
    | contributes contributes =>
      obtain ⟨command, hbuilt, hmarked, htarget⟩ := contributes
      rw [verdict_of_isBuiltBy hbuilt, if_pos (usesLauncher_iff.2 hmarked), htarget]
  · rintro rfl
    exact judged_verdict m configuration name

theorem contributes_iff {target : String} :
    m.Contributes configuration name target ↔ m.verdict configuration name = .target target := by
  rw [eq_comm, ← judged_iff]
  exact ⟨.contributes, fun h => by cases h; assumption⟩

/-- The verdicts on a list of names. -/
theorem forall₂_judged_iff {names : List String} {verdicts : List Verdict} :
    List.Forall₂ (Judged m configuration) names verdicts ↔
      verdicts = names.map (m.verdict configuration) := by
  induction names generalizing verdicts with
  | nil => simp
  | cons name names ih => simp [List.forall₂_cons_left_iff, judged_iff, ih]

theorem selectionTargets_eq (names : List String) :
    m.selectionTargets configuration names =
      (names.map (m.verdict configuration)).filterMap Verdict.target? := by
  rw [selectionTargets, List.filterMap_map]
  congr 1
  funext name
  rw [Function.comp_apply, verdict]
  cases m.selectionEntry configuration name <;> rfl

theorem selectionMessages_eq (names : List String) :
    m.selectionMessages configuration names =
      (names.map (m.verdict configuration)).filterMap Verdict.message? := by
  rw [selectionMessages, List.filterMap_map]
  congr 1
  funext name
  rw [Function.comp_apply, verdict]
  cases m.selectionEntry configuration name <;> rfl

end Manifest

/-! ## What is built -/

/-- The targets that a selection contributes, in the order of its entries. -/
def contributed (verdicts : List Verdict) : List String :=
  verdicts.filterMap Verdict.target?

/-- What the sink is told of the entries: a line for each that contributes nothing. -/
def skippedLines (verdicts : List Verdict) : List SinkCall :=
  (verdicts.filterMap Verdict.message?).map .writeLine

/-- The command that builds what a selection contributes. -/
def Manifest.verdictsCommand (m : Manifest) (launcher : Launcher) (clean : Bool)
    (verdicts : List Verdict) : BuildCommand where
  program := launcher.executable
  args := launcher.options ++ ((if clean then ["-clean"] else []) ++ (contributed verdicts ++
    ["-ide", "-monitor", "-config", m.solution.descriptionPath.text]))
  workingDir := m.solution.dir

namespace Engine

variable (h : Host) (e : Engine)

/-- How the build of a selection comes out on a free channel, by the verdicts on its entries. -/
inductive Accounts (launcher : Launcher) (clean : Bool) (verdicts : List Verdict) :
    Engine × Outcome → Prop
  /-- Nothing is contributed, and the default build is to be run. -/
  | nothing (empty : contributed verdicts = []) :
    Accounts launcher clean verdicts
      (e.tell ([.clear, .activate] ++ skippedLines verdicts ++ EngineError.emptySelection.report),
        .fallback .emptySelection)
  /-- The command runs. -/
  | started {run : ProcessRun} {files : FileTree} (contributes : contributed verdicts ≠ [])
      (launched : h.launch e.files (h.manifest.verdictsCommand launcher clean verdicts) =
        .ok (run, files)) :
    Accounts launcher clean verdicts
      ({ e.tell ([.clear, .activate] ++ skippedLines verdicts ++
          [.writeLine ("Building " ++ ", ".intercalate (contributed verdicts))]) with
          files
          processes := e.processes ++ [{
            channel := .selection
            command := h.manifest.verdictsCommand launcher clean verdicts
            run }] },
        .started .selection e.processes.length)
  /-- The command cannot be run, and the default build is to be. -/
  | unlaunched {cause : OsError} (contributes : contributed verdicts ≠ [])
      (launched : h.launch e.files (h.manifest.verdictsCommand launcher clean verdicts) =
        .error cause) :
    Accounts launcher clean verdicts
      (e.tell ([.clear, .activate] ++ skippedLines verdicts ++
          [.writeLine ("Building " ++ ", ".intercalate (contributed verdicts))] ++
          (EngineError.process (.launch launcher.executable cause)).report),
        .fallback (.process (.launch launcher.executable cause)))

variable {h e} {launcher : Launcher} {names : List String} {configuration : String} {clean : Bool}

theorem tell_tell (e : Engine) (calls more : List SinkCall) :
    (e.tell calls).tell more = e.tell (calls ++ more) := by
  rw [tell, tell, tell, List.append_assoc]

theorem fallBack_eq (e : Engine) (reason : EngineError) :
    e.fallBack reason = (e.tell reason.report, .fallback reason) :=
  congrArg (·, _) (tell_tell e _ _)

theorem accounts_launchOn {verdicts : List Verdict} (hfree : e.isRunning .selection = false)
    (hsome : contributed verdicts ≠ []) :
    Accounts h e launcher clean verdicts
      ((e.tell ([.clear, .activate] ++ skippedLines verdicts ++
          [.writeLine ("Building " ++ ", ".intercalate (contributed verdicts))])).launchOn h
        .selection (h.manifest.verdictsCommand launcher clean verdicts)) := by
  rw [launchOn]
  obtain ⟨hlive, _⟩ | ⟨cause, _, hlaunch, heq⟩ | ⟨run, files, _, hlaunch, heq⟩ :=
    start_cases h (e.tell ([.clear, .activate] ++ skippedLines verdicts ++
      [.writeLine ("Building " ++ ", ".intercalate (contributed verdicts))])) .selection
      (h.manifest.verdictsCommand launcher clean verdicts)
  · cases hfree.symm.trans hlive
  · rw [heq]
    dsimp only
    rw [fallBack_eq, tell_tell]
    exact .unlaunched hsome hlaunch
  · rw [heq]
    exact .started hsome hlaunch

theorem accounts_buildSelection (hnames : 2 ≤ names.length) (hfree : e.isRunning .selection = false)
    (hlauncher : h.manifest.readLauncher e.files = .ok launcher) :
    Accounts h e launcher clean (names.map (h.manifest.verdict configuration))
      (e.buildSelection h names configuration clean) := by
  have hscript : h.manifest.readLauncher (e.tell [.clear, .activate]).files = .ok launcher :=
    hlauncher
  rw [buildSelection, hfree, if_neg Bool.false_ne_true]
  dsimp only
  rw [if_neg (Nat.not_lt.2 hnames), hscript]
  dsimp only
  rw [Manifest.selectionTargets_eq, Manifest.selectionMessages_eq, ← contributed, ← skippedLines,
    tell_tell]
  split
  · next hempty =>
    rw [fallBack_eq, tell_tell]
    exact .nothing (List.isEmpty_iff.1 hempty)
  · next hsome =>
    have hargs : h.manifest.selectionCommand launcher
        (contributed (names.map (h.manifest.verdict configuration))) clean =
          h.manifest.verdictsCommand launcher clean
            (names.map (h.manifest.verdict configuration)) := by
      simp [Manifest.selectionCommand, Manifest.verdictsCommand, Launcher.selectionArguments]
    rw [say, tell_tell, hargs]
    exact accounts_launchOn hfree (mt List.isEmpty_iff.2 hsome)

theorem Accounts.emptySelection_iff {verdicts : List Verdict} {ran : Engine × Outcome}
    (haccounts : Accounts h e launcher clean verdicts ran) :
    ran.2 = .fallback .emptySelection ↔ contributed verdicts = [] := by
  cases haccounts with
  | nothing empty => exact iff_of_true rfl empty
  | started contributes | unlaunched contributes =>
    exact iff_of_false (fun heq => by cases heq) contributes

/-- Every entry of a selection has one verdict, and all that is built and told follows from the
verdicts in the order of the entries. The default build is to be run for want of a target exactly
when no entry contributes one. -/
theorem buildSelection_accounts (hnames : 2 ≤ names.length) (hfree : e.isRunning .selection = false)
    (hlauncher : h.manifest.readLauncher e.files = .ok launcher) :
    (∀ name, ∃! verdict, h.manifest.Judged configuration name verdict) ∧
      ∃ verdicts, List.Forall₂ (h.manifest.Judged configuration) names verdicts ∧
        Accounts h e launcher clean verdicts (e.buildSelection h names configuration clean) ∧
        ((e.buildSelection h names configuration clean).2 = .fallback .emptySelection ↔
          ∀ name ∈ names, ∀ target, ¬ h.manifest.Contributes configuration name target) := by
  have haccounts : Accounts h e launcher clean (names.map (h.manifest.verdict configuration))
      (e.buildSelection h names configuration clean) :=
    accounts_buildSelection hnames hfree hlauncher
  refine ⟨fun name => ?_, _, Manifest.forall₂_judged_iff.2 rfl, haccounts, ?_⟩
  · exact ⟨_, Manifest.judged_verdict h.manifest configuration name,
      fun _ hjudged => Manifest.judged_iff.1 hjudged⟩
  · rw [haccounts.emptySelection_iff, contributed, List.filterMap_map, List.filterMap_eq_nil_iff]
    refine forall₂_congr fun name _ => ?_
    simp only [Manifest.contributes_iff, Function.comp_apply]
    cases h.manifest.verdict configuration name <;> simp [Verdict.target?]

/-- A project that stands twice in a selection is built twice, and one that does not exist is
skipped. -/
theorem buildSelection_accounts_sample :
    let host : Host :=
      { manifest := Manifest.smallSolution "Game", launch := fun files _ => .ok ({}, files) }
    let e : Engine := { files := Manifest.smallTree "Game" }
    let launcher : Launcher := { executable := ⟨"/s/b"⟩, options := [] }
    2 ≤ ["App", "Nope", "App"].length ∧ e.isRunning .selection = false ∧
      host.manifest.readLauncher e.files = .ok launcher ∧
      Accounts host e launcher true
        [.target "X", .skipped "Skipping Nope: unknown project 'Nope'", .target "X"]
        (e.buildSelection host ["App", "Nope", "App"] "Debug" true) := by
  intro host e launcher
  have hnames : 2 ≤ ["App", "Nope", "App"].length := by decide
  have hfree : e.isRunning .selection = false := rfl
  have hlauncher : host.manifest.readLauncher e.files = .ok launcher := by decide +kernel
  obtain ⟨-, verdicts, hjudged, haccounts, -⟩ :=
    @buildSelection_accounts host e launcher _ "Debug" true hnames hfree hlauncher
  have hverdicts : ["App", "Nope", "App"].map (host.manifest.verdict "Debug") =
      [.target "X", .skipped "Skipping Nope: unknown project 'Nope'", .target "X"] := by
    decide +kernel
  rw [Manifest.forall₂_judged_iff.1 hjudged, hverdicts] at haccounts
  exact ⟨hnames, hfree, hlauncher, haccounts⟩

end Engine

end SoloBuild
