import SoloBuild.Proofs.SingleFlight

/-!
# Requests to end a process

Whoever asks for the end of a process waits for its release, and nobody asks a second time. So a
process that was asked to end has one call that waits for it until it is released, and none
afterwards. What events do to calls and processes together is said here once; the invariant that
ties requests to those who wait is derived from it.

## Key results

- `moves_next`: an event carries out one call, or is a step of a supervisor, or does neither
- `accounted_run`: of a process that was asked to end and is not released one call waits for the end
-/

namespace SoloBuild

/-- Whoever has asked for the end of a process waits for that process. -/
theorem Task.process_of_asked? {task : Task} {i : Nat} (h : task.asked? = some i) :
    task.process = i := by
  cases task <;> cases h <;> rfl

@[simp] theorem SupervisorStep.killRequested_apply (step : SupervisorStep) (p : BuildProcess) :
    (step.apply p).killRequested = p.killRequested := by
  obtain ⟨_, _, _, supervision, killRequested⟩ := p
  cases step <;> cases supervision <;> cases killRequested <;> rfl

namespace Processes

variable {ps : Processes} {c : Channel} {p : BuildProcess} {i : Nat}

theorem Killable.getElem? (h : ps.Killable c p i) : ps[i]? = some p :=
  (latest?_eq_some_iff.1 h.latest).1

theorem Killable.not_isAsked (h : ps.Killable c p i) : ¬ ps.IsAsked i := by
  rintro ⟨q, hq, hasked⟩
  cases h.getElem?.symm.trans hq
  cases h.unasked.symm.trans hasked

/-- Whose end is asked for in a change was not asked to end before. -/
theorem Change.not_isAsked {ps' : Processes} (h : ps.Change ps' (some i)) : ¬ ps.IsAsked i := by
  cases h with
  | kill killable => exact killable.not_isAsked

/-- The process at a place is released exactly when it is there and not live. -/
theorem isReleased_iff : ps.isReleased i = true ↔ ∃ p, ps[i]? = some p ∧ p.isLive = false := by
  rw [isReleased, stateAt]
  cases ps[i]? with
  | none => simp [ProcessState.isTerminal]
  | some p =>
    simp only [Option.some.injEq, exists_eq_left', BuildProcess.isLive, BuildProcess.state]
    cases p.supervision <;> simp [Supervision.state, ProcessState.isTerminal,
      ProcessState.isRunning]

theorem isReleased_eq_false_of_isLive (hp : ps[i]? = some p) (hlive : p.isLive = true) :
    ps.isReleased i = false := by
  refine eq_false_of_ne_true fun hreleased => ?_
  obtain ⟨q, hq, hdead⟩ := isReleased_iff.1 hreleased
  cases hp.symm.trans hq
  cases hlive.symm.trans hdead

/-- A released process stays released. -/
theorem Keeps.isReleased {ps' : Processes} (h : ps.Keeps ps') (hi : ps.isReleased i = true) :
    ps'.isReleased i = true := by
  rw [Processes.isReleased, h.stateAt_eq hi]
  exact hi

end Processes

namespace Interleaving

variable {h : Host} {x : Interleaving} {e : Event} {place other i : Nat}

/-! ## What an event does to calls and processes -/

/-- From one moment to another the call at a place is carried out up to its end or its next wait: it
has just been made, or the process that it waited for is released. -/
structure Carries (x y : Interleaving) (place : Nat) (progress : Progress) : Prop where
  change : x.processes.Change y.processes (Progress.asked? progress)
  call : y.calls[place]? = some progress
  others : ∀ other, other ≠ place → y.calls[other]? = x.calls[other]?
  ready : ∀ before, x.calls[place]? = some before →
    ∃ task, before = .inr task ∧ x.processes.isReleased task.process = true

/-- What an event does to the calls and the processes. -/
inductive Moves (h : Host) (x : Interleaving) (e : Event) : Prop where
  | idle (processes : (x.next h e).processes = x.processes)
      (calls : (x.next h e).calls = x.calls)
  | supervise (process : Nat) (step : SupervisorStep)
      (processes : (x.next h e).processes = x.processes.supervise process step.apply)
      (calls : (x.next h e).calls = x.calls)
  | carry (place : Nat) (progress : Progress) (carries : Carries x (x.next h e) place progress)

theorem moves_next (h : Host) (x : Interleaving) (e : Event) : Moves h x e := by
  cases e with
  | call c =>
    refine .carry x.calls.length _ ⟨Session.change_begin h x.session c,
      List.getElem?_concat_length, fun other hother => ?_, fun before hbefore => ?_⟩
    · rw [next, List.getElem?_append, List.getElem?_singleton]
      split
      · rfl
      · rw [if_neg (by omega), List.getElem?_eq_none (by omega)]
    -- Nothing was called at the new place before.
    · rw [List.getElem?_eq_none (Nat.le_refl _)] at hbefore
      cases hbefore
  | resume place =>
    obtain heq | ⟨task, htask, hreleased, heq⟩ := next_resume_cases h x place
    · exact .idle (congrArg processes heq) (congrArg calls heq)
    · refine .carry place _ ⟨?_, getElem?_calls_resume htask hreleased,
        fun other hother => getElem?_calls_resume_ne hother.symm, fun before hbefore => ?_⟩
      · rw [heq]
        exact Session.change_resume h x.session task
      · cases htask.symm.trans hbefore
        exact ⟨task, rfl, hreleased⟩
  | supervise process step => exact .supervise process step rfl rfl
  | forward line => exact .idle rfl rfl

/-! ## Who waits for the end of a process -/

/-- The process for whose end the call made at a place waits, when it has asked for that. -/
def awaits? (x : Interleaving) (place : Nat) : Option Nat :=
  x.calls[place]?.bind Progress.asked?

theorem awaits?_eq_some_iff :
    x.awaits? place = some i ↔
      ∃ task, x.calls[place]? = some (.inr task) ∧ task.asked? = some i := by
  rw [awaits?, Option.bind_eq_some_iff]
  constructor
  · rintro ⟨answer | task, hcall, hasked⟩
    · cases hasked
    · exact ⟨task, hcall, hasked⟩
  · rintro ⟨task, hcall, hasked⟩
    exact ⟨.inr task, hcall, hasked⟩

theorem awaits?_congr {y : Interleaving} (hcall : y.calls[place]? = x.calls[place]?) :
    y.awaits? place = x.awaits? place := by
  rw [awaits?, awaits?, hcall]

theorem process_of_awaits? {task : Task} (htask : x.calls[place]? = some (.inr task))
    (hwaits : x.awaits? place = some i) : task.process = i := by
  obtain ⟨_, hcall, hasked⟩ := awaits?_eq_some_iff.1 hwaits
  cases htask.symm.trans hcall
  exact Task.process_of_asked? hasked

/-- Requests and waits agree: whoever waits for an end has asked for it, alone, and somebody waits
for the end of every process that was asked to end and is not released. -/
structure Accounted (x : Interleaving) : Prop where
  latest : x.processes.LatestLive
  asked : ∀ place i, x.awaits? place = some i → x.processes.IsAsked i
  unique : ∀ place other i, x.awaits? place = some i → x.awaits? other = some i → place = other
  awaited : ∀ i p, x.processes[i]? = some p → p.killRequested = true → p.isLive = true →
    ∃ place, x.awaits? place = some i

variable {y : Interleaving} {progress : Progress}

/-- A call is carried on only when the process is released for whose end it has waited. -/
theorem Carries.isReleased (hy : Carries x y place progress) (hwaits : x.awaits? place = some i) :
    x.processes.isReleased i = true := by
  obtain ⟨task, hcall, _⟩ := awaits?_eq_some_iff.1 hwaits
  obtain ⟨_, htask, hreleased⟩ := hy.ready _ hcall
  cases htask
  exact process_of_awaits? hcall hwaits ▸ hreleased

/-- Who waits for the end of a process then has waited before, or is the call that was carried out
and has asked for it. -/
theorem Carries.awaits?_cases (hy : Carries x y place progress)
    (hwaits : y.awaits? other = some i) :
    other ≠ place ∧ x.awaits? other = some i ∨
      other = place ∧ Progress.asked? progress = some i := by
  by_cases hother : other = place
  · rw [hother, awaits?, hy.call] at hwaits
    exact .inr ⟨hother, hwaits⟩
  · rw [awaits?_congr (hy.others other hother)] at hwaits
    exact .inl ⟨hother, hwaits⟩

/-- The process that the call has asked to end was not asked before. -/
theorem Carries.not_isAsked (hy : Carries x y place progress)
    (hasked : Progress.asked? progress = some i) : ¬ x.processes.IsAsked i := by
  have hchange := hy.change
  rw [hasked] at hchange
  exact hchange.not_isAsked

/-- Whoever waits for the end of a live process goes on waiting. -/
theorem Carries.awaits?_of_isLive (hy : Carries x y place progress) {p : BuildProcess}
    (hwaits : x.awaits? other = some i) (hp : x.processes[i]? = some p) (hlive : p.isLive = true) :
    y.awaits? other = some i := by
  have hother : other ≠ place := by
    rintro rfl
    have hreleased := hy.isReleased hwaits
    rw [Processes.isReleased_eq_false_of_isLive hp hlive] at hreleased
    cases hreleased
  rw [awaits?_congr (hy.others other hother), hwaits]

/-- Where the calls are the same, and nobody has been asked to end, or been revived, all is as
before. -/
theorem Accounted.of_calls_eq (hx : x.Accounted) (hlatest : y.processes.LatestLive)
    (hkeeps : x.processes.Keeps y.processes) (hcalls : y.calls = x.calls)
    (hback : ∀ (i : Nat) (p : BuildProcess), y.processes[i]? = some p → p.killRequested = true →
      p.isLive = true → ∃ q, x.processes[i]? = some q ∧ q.killRequested = true ∧
        q.isLive = true) :
    y.Accounted := by
  have hawaits : ∀ place, y.awaits? place = x.awaits? place :=
    fun place => awaits?_congr (congrArg (·[place]?) hcalls)
  refine ⟨hlatest, fun place i hwaits => ?_, ?_, fun i p hp hasked hlive => ?_⟩
  · rw [hawaits] at hwaits
    exact (hx.asked place i hwaits).keeps hkeeps
  · simpa only [hawaits] using hx.unique
  · obtain ⟨q, hq, hqasked, hqlive⟩ := hback i p hp hasked hlive
    simpa only [hawaits] using hx.awaited i q hq hqasked hqlive

/-- When a call is carried out, it alone can wait for the end of the process that was asked to
end. -/
theorem Accounted.carry (hx : x.Accounted) (hlatest : y.processes.LatestLive)
    (hkeeps : x.processes.Keeps y.processes) (hy : Carries x y place progress) : y.Accounted := by
  refine ⟨hlatest, fun other i hwaits => ?_, fun one other i hone hother => ?_,
    fun i p hp hasked hlive => ?_⟩
  · obtain ⟨_, hwaits⟩ | ⟨_, hnew⟩ := hy.awaits?_cases hwaits
    · exact (hx.asked other i hwaits).keeps hkeeps
    · have hchange := hy.change
      rw [hnew] at hchange
      exact hchange.isAsked
  -- The process that is asked to end now was not asked before, so nobody waited for it.
  · obtain ⟨_, hone⟩ | ⟨rfl, hnew⟩ := hy.awaits?_cases hone
    · obtain ⟨_, hother⟩ | ⟨_, hnew⟩ := hy.awaits?_cases hother
      · exact hx.unique one other i hone hother
      · exact absurd (hx.asked one i hone) (hy.not_isAsked hnew)
    · obtain ⟨_, hother⟩ | ⟨heq, _⟩ := hy.awaits?_cases hother
      · exact absurd (hx.asked other i hother) (hy.not_isAsked hnew)
      · exact heq.symm
  -- Whoever waited for a live process goes on waiting.
  · have hold : ∀ {q : BuildProcess}, x.processes[i]? = some q →
        q.killRequested = true → q.isLive = true → ∃ other, y.awaits? other = some i := by
      intro q hq hasked hlive
      obtain ⟨other, hwaits⟩ := hx.awaited i q hq hasked hlive
      exact ⟨other, hy.awaits?_of_isLive hwaits hq hlive⟩
    have hchange := hy.change
    generalize y.processes = after at hchange hp
    generalize hlabel : Progress.asked? progress = label at hchange
    cases hchange with
    | same => exact hold hp hasked hlive
    | kill =>
      obtain ⟨q, hq, rfl⟩ := Processes.getElem?_supervise.1 hp
      split at hasked
      -- The call that has asked for this end waits for it.
      · rename_i hj
        refine ⟨place, ?_⟩
        rw [awaits?, hy.call, ← hj]
        exact hlabel
      · rename_i hj
        rw [if_neg hj] at hlive
        exact hold hq hasked hlive
    | start =>
      obtain hp | ⟨_, rfl⟩ := Processes.getElem?_concat_cases hp
      · exact hold hp hasked hlive
      · cases hasked

theorem Accounted.next (hx : x.Accounted) (e : Event) : (x.next h e).Accounted := by
  have hkeeps := keeps_next h x e
  have hlatest := latestLive_next (h := h) hx.latest e
  cases moves_next h x e with
  | idle processes calls =>
    refine hx.of_calls_eq hlatest hkeeps calls fun i p hp hasked hlive => ?_
    rw [processes] at hp
    exact ⟨p, hp, hasked, hlive⟩
  -- A supervisor asks for nothing, and revives nothing.
  | supervise process step processes calls =>
    refine hx.of_calls_eq hlatest hkeeps calls fun i p hp hasked hlive => ?_
    rw [processes] at hp
    obtain ⟨q, hq, rfl⟩ := Processes.getElem?_supervise.1 hp
    split at hasked
    · rename_i hi
      rw [if_pos hi] at hlive
      exact ⟨q, hq, by simpa using hasked, (BuildProcess.keeps_apply step q).isLive hlive⟩
    · rename_i hi
      rw [if_neg hi] at hlive
      exact ⟨q, hq, hasked, hlive⟩
  | carry place progress hy => exact hx.carry hlatest hkeeps hy

theorem accounted_fresh (files : FileTree) : (fresh files).Accounted where
  latest _ _ hp := by cases hp
  asked _ _ hwaits := by cases hwaits
  unique _ _ _ hone := by cases hone
  awaited _ _ hp := by cases hp

theorem accounted_run (files : FileTree) (events : List Event) :
    (run h (fresh files) events).Accounted :=
  run_invariant (fun _ e _ hy => hy.next e) (accounted_fresh files)

end Interleaving

end SoloBuild
