import SoloBuild.Proofs.CallSteps

/-!
# The follow-ups that ran

A follow-up runs only in a signal that ends a build. This module says which signals and requests run
one and what they leave pending.

## Key results

- `Engine.signal_done_cases`, `Engine.complete_cases`: when the end of a build runs a follow-up
-/

namespace SoloBuild

/-- All labels with which a follow-up can run, itself or as one that it queues. -/
def FollowUp.labels (f : FollowUp) : List String :=
  f.label :: f.later

namespace Engine

variable (e : Engine)

/-- The labels of the follow-ups that ran, in order. -/
def ran : List String :=
  e.fired.map Firing.label

theorem ran_fire (f : FollowUp) : (e.fire f).ran = e.ran ++ [f.label] := by
  rw [fire]
  cases f.next? <;> simp [ran, requestFollowUp]

/-- The end of a build runs the follow-up that is pending unless a failure was recorded, and leaves
nothing else behind. -/
theorem signal_done_cases :
    (∃ f, e.lifecycle.pending = some f ∧ e.lifecycle.success = true ∧
        e.signal .done =
          (fire { e with lifecycle := { phase := .idle, pending := none, success := true } } f,
            true)) ∨
      ((e.lifecycle.success = false ∨ e.lifecycle.pending = none) ∧
        e.signal .done =
          ({ e with lifecycle := { e.lifecycle with phase := .idle, pending := none } },
            false)) := by
  obtain ⟨files, processes, ⟨phase, pending, success⟩, fired, output⟩ := e
  cases success with
  | false => exact .inr ⟨.inl rfl, rfl⟩
  | true =>
    cases pending with
    | none => exact .inr ⟨.inr rfl, rfl⟩
    | some f => exact .inl ⟨f, rfl, rfl, rfl⟩

/-- The end of a unit's build runs the follow-up that is pending exactly when the unit's process was
a success and no failure was recorded before. -/
theorem complete_cases (c : Completion) :
    (∃ f, e.lifecycle.pending = some f ∧ e.lifecycle.success = true ∧
        (e.processes.stateAt c.process).isSuccess = true ∧
        e.complete c =
          (fire { e with lifecycle := { phase := .idle, pending := none, success := true } } f,
            .completed (e.processes.stateAt c.process) true)) ∨
      ((e.lifecycle.pending = none ∨ e.lifecycle.success = false ∨
          (e.processes.stateAt c.process).isSuccess = false) ∧
        ∃ success, e.complete c =
          ({ e with lifecycle := { phase := .idle, pending := none, success } },
            .completed (e.processes.stateAt c.process) false)) := by
  -- The end of the unit is recorded first; a failure counts only while a follow-up is pending.
  have hunit : (e.signal (.unitDone c.unit (e.processes.stateAt c.process).isSuccess)).1 =
      { e with
        lifecycle.success := e.lifecycle.success &&
          ((e.processes.stateAt c.process).isSuccess || e.lifecycle.pending.isNone) } := rfl
  rw [complete, hunit]
  obtain ⟨f, hpending, hsuccess, heq⟩ | ⟨hnot, heq⟩ := signal_done_cases
    { e with
      lifecycle.success := e.lifecycle.success &&
        ((e.processes.stateAt c.process).isSuccess || e.lifecycle.pending.isNone) }
  · rw [heq]
    dsimp only at hpending hsuccess
    simp only [hpending, Option.isNone_some, Bool.or_false, Bool.and_eq_true] at hsuccess
    exact .inl ⟨f, hpending, hsuccess.1, hsuccess.2, rfl⟩
  · rw [heq]
    refine .inr ⟨?_, _, rfl⟩
    dsimp only at hnot
    cases hpending : e.lifecycle.pending with
    | none => exact .inl rfl
    | some f =>
      simp only [hpending, Option.isNone_some, Bool.or_false, Bool.and_eq_false_iff,
        reduceCtorEq, or_false] at hnot
      exact .inr hnot

/-! ## Labels -/

/-- No follow-up with the label is pending. -/
def Lacks (label : String) : Prop :=
  ∀ f, e.lifecycle.pending = some f → label ∉ f.labels

/-- On the way from one engine to another nothing with a label has run, and nothing with it is
pending then. -/
structure Without (label : String) (e e' : Engine) : Prop where
  count : e'.ran.count label = e.ran.count label
  lacks : e'.Lacks label

variable {e} {label : String}

/-- What a follow-up queues when it runs has the labels that are left. -/
theorem lacks_fire {f : FollowUp} (he : e.Lacks label) (hlater : label ∉ f.later) :
    (e.fire f).Lacks label := by
  intro g hg
  rw [fire] at hg
  cases hnext : f.next? with
  -- Nothing is queued, so what is pending was pending before.
  | none =>
    rw [hnext] at hg
    exact he g hg
  | some next =>
    rw [hnext] at hg
    cases hg
    rw [FollowUp.next?] at hnext
    split at hnext
    · cases hnext
    · next hlabels =>
      cases hnext
      rwa [FollowUp.labels, ← hlabels]

/-- After the end of a build only what the follow-up has queued is pending. -/
theorem lacks_done (hlater : ∀ f, e.lifecycle.pending = some f → label ∉ f.later) :
    (e.signal .done).1.Lacks label := by
  obtain ⟨f, hpending, _, heq⟩ | ⟨_, heq⟩ := signal_done_cases e
  · rw [heq]
    exact lacks_fire nofun (hlater f hpending)
  · rw [heq]
    exact nofun

theorem without_done (he : e.Lacks label) : Without label e (e.signal .done).1 := by
  refine ⟨?_, lacks_done fun f hf => fun hlater => he f hf (List.mem_cons_of_mem _ hlater)⟩
  obtain ⟨f, hpending, _, heq⟩ | ⟨_, heq⟩ := signal_done_cases e
  · have hne : f.label ≠ label := fun hlabel => he f hpending (hlabel ▸ List.mem_cons_self)
    rw [heq, ran_fire, List.count_append, List.count_singleton, if_neg (by simpa using hne),
      Nat.add_zero]
    rfl
  · rw [heq]
    rfl

/-- After the end of a unit's build, too, only what the follow-up has queued is pending. -/
theorem lacks_complete (hlater : ∀ f, e.lifecycle.pending = some f → label ∉ f.later)
    (c : Completion) : (e.complete c).1.Lacks label :=
  @lacks_done (e.signal (.unitDone c.unit (e.processes.stateAt c.process).isSuccess)).1 label hlater

theorem without_complete (he : e.Lacks label) (c : Completion) :
    Without label e (e.complete c).1 := by
  have hdone := @without_done
    (e.signal (.unitDone c.unit (e.processes.stateAt c.process).isSuccess)).1 label he
  exact ⟨hdone.count, hdone.lacks⟩

theorem without_debugStartup (h : Host) (he : e.Lacks label) (project configuration : String)
    {f : FollowUp} (hf : label ∉ f.labels) :
    Without label e (e.debugStartup h project configuration f).1 := by
  obtain ⟨e', _, heq, _, _, hfired, hlifecycle⟩ | ⟨e', _, _, _, heq, _, _, hfired, hlifecycle⟩ :=
    debugStartup_cases h e project configuration f
  · rw [heq]
    refine ⟨congrArg (fun fired => (fired.map Firing.label).count label) hfired, ?_⟩
    obtain hsame | hreset := hlifecycle
    · rw [Lacks, hsame]
      exact he
    · rw [Lacks, hreset]
      exact nofun
  · rw [heq]
    refine ⟨congrArg (fun fired => (fired.map Firing.label).count label) hfired, ?_⟩
    rw [Lacks, hlifecycle]
    rintro _ ⟨⟩
    exact hf

end Engine

namespace Session

variable (h : Host) (s : Session)

/-- A request for debugging is answered at once, without having run a follow-up, or has made its
follow-up pending and waits. -/
theorem begin_debug_cases (project configuration : String) (f : FollowUp) :
    (s.begin h (.debug project configuration f)).1.engine.ran = s.engine.ran ∧
      ((∃ outcome, (s.begin h (.debug project configuration f)).2 = .inl (.outcome outcome) ∧
          ∀ state fired, outcome ≠ .completed state fired) ∨
        ∃ completion,
          (s.begin h (.debug project configuration f)).2 = .inr (.unitRun completion) ∧
            (s.begin h (.debug project configuration f)).1.engine.lifecycle =
              { phase := .running, pending := some f, success := true }) := by
  rw [begin]
  obtain ⟨e', outcome, heq, hshort, _, hfired, _⟩ |
      ⟨e', unit, _, _, heq, _, _, hfired, hlifecycle⟩ :=
    Engine.debugStartup_cases h s.engine project configuration f
  · rw [heq]
    exact ⟨congrArg (List.map Firing.label) hfired, .inl ⟨outcome, rfl, hshort⟩⟩
  · rw [heq]
    exact ⟨congrArg (List.map Firing.label) hfired, .inr ⟨_, rfl, hlifecycle⟩⟩

/-- A request for debugging that goes on reports the state of its process, and has run the pending
follow-up or none. -/
theorem resume_unitRun_cases (completion : Completion) :
    (∃ f, s.engine.lifecycle.pending = some f ∧
        (s.engine.processes.stateAt completion.process).isSuccess = true ∧
        (s.resume h (.unitRun completion)).1.engine.ran = s.engine.ran ++ [f.label] ∧
        (s.resume h (.unitRun completion)).2 =
          .inl (.outcome (.completed (s.engine.processes.stateAt completion.process) true))) ∨
      ((s.engine.lifecycle.pending = none ∨ s.engine.lifecycle.success = false ∨
          (s.engine.processes.stateAt completion.process).isSuccess = false) ∧
        (s.resume h (.unitRun completion)).1.engine.ran = s.engine.ran ∧
        (s.resume h (.unitRun completion)).2 =
          .inl (.outcome (.completed (s.engine.processes.stateAt completion.process) false))) := by
  rw [resume, answered]
  obtain ⟨f, hpending, _, hsuccess, heq⟩ | ⟨hnot, success, heq⟩ :=
    Engine.complete_cases s.engine completion
  · rw [heq]
    exact .inl ⟨f, hpending, hsuccess, Engine.ran_fire _ f, rfl⟩
  · rw [heq]
    exact .inr ⟨hnot, rfl, rfl⟩

end Session

namespace Interleaving

variable {h : Host} {x : Interleaving}

/-- The labels of the follow-ups that ran, in order. -/
def ran (x : Interleaving) : List String :=
  x.session.engine.ran

/-- The lifecycle of builds. -/
def lifecycle (x : Interleaving) : Lifecycle FollowUp :=
  x.session.engine.lifecycle

end Interleaving

end SoloBuild
