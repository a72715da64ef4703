import SoloBuild.Engine.Prepare

/-!
# The stages of a preparation

A compile is prepared in stages: the source is found, the project it belongs to is asked for, the
launcher and the name of the target are read, then the two descriptions. Each stage can refuse, and
the first refusal is the one that is reported. This module says as rules when a stage refuses and
what all of them give together, and that no file is touched before the last one has passed.

## Key results

- `refuses_or_passes`: the rules cover every request
- `planCompile_eq_error_iff`, `planCompile_eq_ok_iff`: planning a compile is following the rules
- `prepareCompile_fails_iff`: a refusal leaves the files alone, and every other failure is that of
  writing the config
-/

namespace SoloBuild.Manifest

open Description SingleFile

variable (m : Manifest) (t : FileTree) (file : Path) (configuration : String)

/-! ## The rules -/

/-- The file exists and belongs to a project that is built through the launcher. -/
structure Owned (source : Path) (project : ProjectInfo) : Prop where
  found : t.canonicalize file = .ok source
  owner : m.projectForFile t source configuration = .ok project
  external : m.isExternal project = true

/-- The launcher can be used as well, and the build command names a target. -/
structure Launched (source : Path) (project : ProjectInfo) (launcher : Launcher) (name : String) :
    Prop extends Owned m t file configuration source project where
  script : m.readLauncher t = .ok launcher
  target : Launcher.targetOf project.buildCommand = .ok name

/-- The project's description can be read as well, and declares the target. -/
structure Located (source : Path) (project : ProjectInfo) (launcher : Launcher) (name : String)
    (description : Document) (node : TargetNode) : Prop
    extends Launched m t file configuration source project launcher name where
  readable : readDescription t project.descriptionPath = .ok description
  declared : description.locate name TargetKind.all = .ok node

/-- All stages pass, and this is the plan they give. -/
inductive Passes : CompilePlan → Prop where
  | plan {source : Path} {project : ProjectInfo} {launcher : Launcher} {name : String}
      {description solution : Document} {node : TargetNode}
      (located : Located m t file configuration source project launcher name description node)
      (readable : readDescription t m.solution.descriptionPath = .ok solution) :
      Passes {
        project
        target := Target.ofNode node source m.settings
        solution
        executable := launcher.executable }

/-- A stage refuses for this reason, and those before it pass. -/
inductive Refuses : EngineError → Prop where
  | source {cause : OsError} (refused : t.canonicalize file = .error cause) :
      Refuses (.read file cause)
  | owner {source : Path} {cause : HostError} (found : t.canonicalize file = .ok source)
      (refused : m.projectForFile t source configuration = .error cause) : Refuses (.host cause)
  | external {source : Path} {project : ProjectInfo} (found : t.canonicalize file = .ok source)
      (owner : m.projectForFile t source configuration = .ok project)
      (refused : m.isExternal project = false) :
      Refuses (.notApplicable project.name m.settings.launcherMarker)
  | script {source : Path} {project : ProjectInfo} {cause : OsError}
      (owned : Owned m t file configuration source project)
      (refused : t.readText (m.solution.launcherPath m.settings) = .error cause) :
      Refuses (.read (m.solution.launcherPath m.settings) cause)
  | launcher {source : Path} {project : ProjectInfo} {text : String} {cause : LauncherError}
      (owned : Owned m t file configuration source project)
      (readable : t.readText (m.solution.launcherPath m.settings) = .ok text)
      (refused : Launcher.read (m.solution.launcherPath m.settings) text m.solution.dir =
        .error cause) :
      Refuses (.launcher cause)
  | target {source : Path} {project : ProjectInfo} {launcher : Launcher} {cause : LauncherError}
      (owned : Owned m t file configuration source project)
      (script : m.readLauncher t = .ok launcher)
      (refused : Launcher.targetOf project.buildCommand = .error cause) : Refuses (.launcher cause)
  | description {source : Path} {project : ProjectInfo} {launcher : Launcher} {name : String}
      {cause : OsError} (launched : Launched m t file configuration source project launcher name)
      (refused : t.readText project.descriptionPath = .error cause) :
      Refuses (.read project.descriptionPath cause)
  | declaration {source : Path} {project : ProjectInfo} {launcher : Launcher} {name : String}
      {description : Document} {cause : LocateError}
      (launched : Launched m t file configuration source project launcher name)
      (readable : readDescription t project.descriptionPath = .ok description)
      (refused : description.locate name TargetKind.all = .error cause) : Refuses (.locate cause)
  | solution {source : Path} {project : ProjectInfo} {launcher : Launcher} {name : String}
      {description : Document} {node : TargetNode} {cause : OsError}
      (located : Located m t file configuration source project launcher name description node)
      (refused : t.readText m.solution.descriptionPath = .error cause) :
      Refuses (.read m.solution.descriptionPath cause)

variable {m t file configuration}

/-! ## The rules cover every request -/

theorem readDescription_of_error {path : Path} {cause : OsError}
    (h : t.readText path = .error cause) : readDescription t path = .error (.read path cause) := by
  rw [readDescription, h]

/-- A description that cannot be read is a file that cannot be read. -/
theorem readDescription_cases (t : FileTree) (path : Path) :
    (∃ cause, t.readText path = .error cause) ∨
      ∃ description, readDescription t path = .ok description := by
  cases h : t.readText path with
  | error cause => exact .inl ⟨cause, rfl⟩
  | ok text => exact .inr ⟨⟨path, text⟩, by rw [readDescription, h]⟩

theorem readLauncher_of_error {cause : OsError}
    (h : t.readText (m.solution.launcherPath m.settings) = .error cause) :
    m.readLauncher t = .error (.read (m.solution.launcherPath m.settings) cause) := by
  unfold readLauncher
  simp only [h]

theorem readLauncher_of_ok {text : String}
    (h : t.readText (m.solution.launcherPath m.settings) = .ok text) :
    m.readLauncher t = (Launcher.read (m.solution.launcherPath m.settings) text
      m.solution.dir).mapError .launcher := by
  unfold readLauncher
  simp only [h]

/-- A launcher that cannot be used has a script that cannot be read, or that names no executable. -/
theorem readLauncher_cases (m : Manifest) (t : FileTree) :
    (∃ cause, t.readText (m.solution.launcherPath m.settings) = .error cause) ∨
      (∃ text cause, t.readText (m.solution.launcherPath m.settings) = .ok text ∧
        Launcher.read (m.solution.launcherPath m.settings) text m.solution.dir = .error cause) ∨
      ∃ launcher, m.readLauncher t = .ok launcher := by
  cases htext : t.readText (m.solution.launcherPath m.settings) with
  | error cause => exact .inl ⟨cause, rfl⟩
  | ok text =>
    cases hread : Launcher.read (m.solution.launcherPath m.settings) text m.solution.dir with
    | error cause => exact .inr (.inl ⟨text, cause, rfl, hread⟩)
    | ok launcher => exact .inr (.inr ⟨launcher, by rw [readLauncher_of_ok htext, hread]; rfl⟩)

/-- Either one of the first stages refuses, or a project owns the file. -/
theorem refuses_or_owned (m : Manifest) (t : FileTree) (file : Path) (configuration : String) :
    (∃ e, Refuses m t file configuration e) ∨
      ∃ source project, Owned m t file configuration source project := by
  cases hfound : t.canonicalize file with
  | error cause => exact .inl ⟨_, .source hfound⟩
  | ok source =>
    cases howner : m.projectForFile t source configuration with
    | error cause => exact .inl ⟨_, .owner hfound howner⟩
    | ok project =>
      cases hexternal : m.isExternal project with
      | false => exact .inl ⟨_, .external hfound howner hexternal⟩
      | true => exact .inr ⟨source, project, hfound, howner, hexternal⟩

theorem refuses_or_launched {source : Path} {project : ProjectInfo}
    (h : Owned m t file configuration source project) :
    (∃ e, Refuses m t file configuration e) ∨
      ∃ launcher name, Launched m t file configuration source project launcher name := by
  obtain ⟨cause, hscript⟩ | ⟨text, cause, hscript, hlauncher⟩ | ⟨launcher, hlauncher⟩ :=
    readLauncher_cases m t
  · exact .inl ⟨_, .script h hscript⟩
  · exact .inl ⟨_, .launcher h hscript hlauncher⟩
  · cases htarget : Launcher.targetOf project.buildCommand with
    | error cause => exact .inl ⟨_, .target h hlauncher htarget⟩
    | ok name => exact .inr ⟨launcher, name, h, hlauncher, htarget⟩

theorem refuses_or_located {source : Path} {project : ProjectInfo} {launcher : Launcher}
    {name : String} (h : Launched m t file configuration source project launcher name) :
    (∃ e, Refuses m t file configuration e) ∨
      ∃ description node,
        Located m t file configuration source project launcher name description node := by
  obtain ⟨cause, hdescription⟩ | ⟨description, hdescription⟩ :=
    readDescription_cases t project.descriptionPath
  · exact .inl ⟨_, .description h hdescription⟩
  · cases hnode : description.locate name TargetKind.all with
    | error cause => exact .inl ⟨_, .declaration h hdescription hnode⟩
    | ok node => exact .inr ⟨description, node, h, hdescription, hnode⟩

/-- Either some stage refuses, or all pass. -/
theorem refuses_or_passes (m : Manifest) (t : FileTree) (file : Path) (configuration : String) :
    (∃ e, Refuses m t file configuration e) ∨ ∃ plan, Passes m t file configuration plan := by
  obtain hrefuses | ⟨source, project, howned⟩ := refuses_or_owned m t file configuration
  · exact .inl hrefuses
  obtain hrefuses | ⟨launcher, name, hlaunched⟩ := refuses_or_launched howned
  · exact .inl hrefuses
  obtain hrefuses | ⟨description, node, hlocated⟩ := refuses_or_located hlaunched
  · exact .inl hrefuses
  obtain ⟨cause, hsolution⟩ | ⟨solution, hsolution⟩ :=
    readDescription_cases t m.solution.descriptionPath
  · exact .inl ⟨_, .solution hlocated hsolution⟩
  · exact .inr ⟨_, .plan hlocated hsolution⟩

/-! ## Planning is following the rules -/

section MapError

variable {α β γ : Type} (f : α → β)

@[simp] theorem mapError_ok (a : γ) : (Except.ok a : Except α γ).mapError f = .ok a := rfl

@[simp] theorem mapError_error (e : α) :
    (Except.error e : Except α γ).mapError f = .error (f e) := rfl

end MapError

/-- The plan of stages that all pass. -/
theorem Passes.planCompile_eq {plan : CompilePlan} (h : Passes m t file configuration plan) :
    m.planCompile t file configuration = .ok plan := by
  obtain ⟨⟨⟨⟨hfound, howner, hexternal⟩, hlauncher, htarget⟩, hdescription, hnode⟩, hsolution⟩ := h
  simp [planCompile, hfound, howner, ensureExternal, hexternal, hlauncher, htarget, hdescription,
    hnode, hsolution, bind, Except.bind, pure, Except.pure]

/-- The refusal of the first stage that does not pass. -/
theorem Refuses.planCompile_eq {e : EngineError} (h : Refuses m t file configuration e) :
    m.planCompile t file configuration = .error e := by
  -- The stages up to the one that refuses are followed in their order.
  cases h with
  | source refused =>
    simp [planCompile, refused, bind, Except.bind]
  | owner found refused =>
    simp [planCompile, found, refused, bind, Except.bind]
  | external found owner refused =>
    simp [planCompile, found, owner, ensureExternal, refused, bind, Except.bind]
  | script owned refused =>
    obtain ⟨found, owner, external⟩ := owned
    simp [planCompile, found, owner, ensureExternal, external, readLauncher_of_error refused,
      bind, Except.bind]
  | launcher owned readable refused =>
    obtain ⟨found, owner, external⟩ := owned
    simp [planCompile, found, owner, ensureExternal, external, readLauncher_of_ok readable, refused,
      bind, Except.bind]
  | target owned script refused =>
    obtain ⟨found, owner, external⟩ := owned
    simp [planCompile, found, owner, ensureExternal, external, script, refused, bind, Except.bind]
  | description launched refused =>
    obtain ⟨⟨found, owner, external⟩, script, target⟩ := launched
    simp [planCompile, found, owner, ensureExternal, external, script, target,
      readDescription_of_error refused, bind, Except.bind]
  | declaration launched readable refused =>
    obtain ⟨⟨found, owner, external⟩, script, target⟩ := launched
    simp [planCompile, found, owner, ensureExternal, external, script, target, readable, refused,
      bind, Except.bind]
  | solution located refused =>
    obtain ⟨⟨⟨found, owner, external⟩, script, target⟩, readable, declared⟩ := located
    simp [planCompile, found, owner, ensureExternal, external, script, target, readable, declared,
      readDescription_of_error refused, bind, Except.bind]

theorem planCompile_eq_ok_iff {plan : CompilePlan} :
    m.planCompile t file configuration = .ok plan ↔ Passes m t file configuration plan := by
  refine ⟨fun h => ?_, Passes.planCompile_eq⟩
  obtain ⟨e, hrefuses⟩ | ⟨plan', hpasses⟩ := refuses_or_passes m t file configuration
  · rw [hrefuses.planCompile_eq] at h
    cases h
  · rw [hpasses.planCompile_eq] at h
    cases h
    exact hpasses

theorem planCompile_eq_error_iff {e : EngineError} :
    m.planCompile t file configuration = .error e ↔ Refuses m t file configuration e := by
  refine ⟨fun h => ?_, Refuses.planCompile_eq⟩
  obtain ⟨e', hrefuses⟩ | ⟨plan, hpasses⟩ := refuses_or_passes m t file configuration
  · rw [hrefuses.planCompile_eq] at h
    cases h
    exact hrefuses
  · rw [hpasses.planCompile_eq] at h
    cases h

/-- No stage refuses because the config cannot be written. -/
theorem Refuses.ne_write {e : EngineError} (h : Refuses m t file configuration e) (path : Path)
    (cause : OsError) : e ≠ .write path cause := by
  cases h <;> exact nofun

/-! ## Carrying out a plan -/

/-- A plan is carried out by writing the config it composes. -/
theorem Passes.prepareCompile_eq {plan : CompilePlan} (h : Passes m t file configuration plan) :
    m.prepareCompile t file configuration =
      let synthesized :=
        synthesize t plan.solution plan.target.name plan.target.text plan.project.dir m.settings
      (synthesized.1,
        match synthesized.2 with
        | .error (path, cause) => .error (.write path cause)
        | .ok config => .ok {
            project := plan.project
            target := plan.target
            config
            command := m.compileCommand plan config.path }) := by
  rewrite [prepareCompile, h.planCompile_eq]
  rfl

theorem Refuses.prepareCompile_eq {e : EngineError} (h : Refuses m t file configuration e) :
    m.prepareCompile t file configuration = (t, .error e) :=
  prepare_of_plan_error h.planCompile_eq

/-- Carrying out a plan fails exactly when its config cannot be written. -/
theorem Passes.prepareCompile_eq_error_iff {plan : CompilePlan}
    (h : Passes m t file configuration plan) {e : EngineError} :
    (m.prepareCompile t file configuration).2 = .error e ↔
      ∃ cause, e = .write (transientPath plan.solution m.settings) cause ∧
        t.writeText (transientPath plan.solution m.settings)
          (compose plan.solution plan.target.name plan.target.text m.settings) = .error cause := by
  rw [h.prepareCompile_eq]
  dsimp only
  cases hresult : (synthesize t plan.solution plan.target.name plan.target.text plan.project.dir
      m.settings).2 with
  | ok config =>
    -- Where synthesis succeeds, the config could be written.
    simp only [reduceCtorEq, false_iff, not_exists, not_and]
    rintro cause - hwrite
    rw [synthesize_error_iff.2 ⟨rfl, hwrite⟩] at hresult
    cases hresult
  | error failure =>
    obtain ⟨path, cause⟩ := failure
    obtain ⟨rfl, hwrite⟩ := synthesize_error_iff.1 hresult
    constructor
    · intro h
      exact ⟨cause, (Except.error.inj h).symm, hwrite⟩
    · rintro ⟨cause', rfl, hwrite'⟩
      rw [hwrite] at hwrite'
      rw [Except.error.inj hwrite']

/-- What a plan answers that is carried out. -/
def preparedOf (m : Manifest) (plan : CompilePlan) (purged : Option Path) : PreparedCompile where
  project := plan.project
  target := plan.target
  config := {
    path := transientPath plan.solution m.settings
    content := compose plan.solution plan.target.name plan.target.text m.settings
    purged }
  command := m.compileCommand plan (transientPath plan.solution m.settings)

/-- A plan whose config can be written is carried out. -/
theorem Passes.prepareCompile_of_written {plan : CompilePlan} {written : FileTree}
    (h : Passes m t file configuration plan)
    (hwrite : t.writeText (transientPath plan.solution m.settings)
      (compose plan.solution plan.target.name plan.target.text m.settings) = .ok written) :
    m.prepareCompile t file configuration =
      ((purge written plan.target.text.toList plan.project.dir m.settings).1,
        .ok (m.preparedOf plan
          (purge written plan.target.text.toList plan.project.dir m.settings).2)) := by
  rw [h.prepareCompile_eq]
  simp only [synthesize, SingleFile.written, hwrite]
  rfl

/-- What is prepared was planned, and its config was written before earlier output was removed. -/
theorem exists_of_prepareCompile_eq_ok {after : FileTree} {prepared : PreparedCompile}
    (h : m.prepareCompile t file configuration = (after, .ok prepared)) :
    ∃ plan written, Passes m t file configuration plan ∧
      t.writeText (transientPath plan.solution m.settings)
        (compose plan.solution plan.target.name plan.target.text m.settings) = .ok written ∧
      after = (purge written plan.target.text.toList plan.project.dir m.settings).1 ∧
      prepared = m.preparedOf plan
        (purge written plan.target.text.toList plan.project.dir m.settings).2 := by
  obtain ⟨e, hrefuses⟩ | ⟨plan, hpasses⟩ := refuses_or_passes m t file configuration
  · rw [hrefuses.prepareCompile_eq] at h
    cases h
  · cases hwrite : t.writeText (transientPath plan.solution m.settings)
        (compose plan.solution plan.target.name plan.target.text m.settings) with
    | error cause =>
      have herror := hpasses.prepareCompile_eq_error_iff.2 ⟨cause, rfl, hwrite⟩
      rw [h] at herror
      cases herror
    | ok written =>
      rw [hpasses.prepareCompile_of_written hwrite] at h
      cases h
      exact ⟨plan, written, hpasses, hwrite, rfl, rfl⟩

/-- A preparation that fails for another reason than writing the config fails because a stage
refuses, and then the files are as they were. It fails to write the config exactly when all stages
pass and the config of their plan cannot be written, whatever becomes of earlier output. -/
theorem prepareCompile_fails_iff (m : Manifest) (t : FileTree) (file : Path)
    (configuration : String) :
    (∀ e, Refuses m t file configuration e ↔
      (m.prepareCompile t file configuration).2 = .error e ∧
        ∀ path cause, e ≠ .write path cause) ∧
    (∀ e, Refuses m t file configuration e → (m.prepareCompile t file configuration).1 = t) ∧
    ∀ path cause, (m.prepareCompile t file configuration).2 = .error (.write path cause) ↔
      ∃ plan, Passes m t file configuration plan ∧
        path = transientPath plan.solution m.settings ∧
        t.writeText path (compose plan.solution plan.target.name plan.target.text m.settings) =
          .error cause := by
  refine ⟨fun e => ⟨fun h => ?_, ?_⟩, fun e h => ?_, fun path cause => ⟨fun h => ?_, ?_⟩⟩
  · exact ⟨congrArg Prod.snd h.prepareCompile_eq, h.ne_write⟩
  · rintro ⟨herror, hother⟩
    obtain ⟨e', hrefuses⟩ | ⟨plan, hpasses⟩ := refuses_or_passes m t file configuration
    · rw [hrefuses.prepareCompile_eq] at herror
      cases herror
      exact hrefuses
    · obtain ⟨cause, hwrite, _⟩ := hpasses.prepareCompile_eq_error_iff.1 herror
      exact absurd hwrite (hother _ cause)
  · exact congrArg Prod.fst h.prepareCompile_eq
  · obtain ⟨e, hrefuses⟩ | ⟨plan, hpasses⟩ := refuses_or_passes m t file configuration
    · rw [hrefuses.prepareCompile_eq] at h
      cases h
      exact absurd rfl (hrefuses.ne_write path cause)
    · obtain ⟨cause', heq, hwrite⟩ := hpasses.prepareCompile_eq_error_iff.1 h
      cases heq
      exact ⟨plan, hpasses, rfl, hwrite⟩
  · rintro ⟨plan, hpasses, rfl, hwrite⟩
    exact hpasses.prepareCompile_eq_error_iff.2 ⟨cause, rfl, hwrite⟩

end SoloBuild.Manifest
