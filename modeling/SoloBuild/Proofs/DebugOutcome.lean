import SoloBuild.Proofs.FollowUps

/-!
# How a request for debugging ends

A request for debugging runs its follow-up when the build it has started succeeds, and in no other
case: not when it is refused, not when it falls back, and not when the process fails or is killed.
That holds from every state of the engine, whatever earlier builds have left pending or recorded,
as long as nobody else asks anything of the engine before the request is answered; processes may be
killed meanwhile.

## Key results

- `next_of_not_disturbs`: what else happens leaves builds and follow-ups alone
- `DebugStage`: where a request has got to, and what it has done to builds and follow-ups so far
- `debugStage_run`: a request runs its follow-up exactly once if its process exits with code zero,
  and never otherwise
-/

namespace SoloBuild

/-- The call only kills processes. -/
def Call.isKill : Call → Bool
  | .kill _ | .killAll => true
  | _ => false

/-- The call waits, and only kills processes. -/
def Progress.isKill : Progress → Bool
  | .inr (.kill _) | .inr (.killAll _) => true
  | _ => false

/-- A follow-up that queues nothing is recorded, and nothing else changes. -/
theorem Engine.fire_of_later_eq_nil (e : Engine) {f : FollowUp} (hf : f.later = []) :
    e.fire f =
      { e with
        fired := e.fired ++
          [{ label := f.label, sawPending := e.hasPending, phase := e.lifecycle.phase }] } := by
  rw [fire, FollowUp.next?, hf]

namespace Session

variable (h : Host) (s : Session)

/-- Killing processes tells the lifecycle nothing. -/
theorem afterSweep_killAll (swept : Processes × (Processes.Sweep ⊕ Nat)) :
    (s.afterSweep swept .killAll killedAll).1.engine.lifecycle = s.engine.lifecycle ∧
      (s.afterSweep swept .killAll killedAll).1.engine.fired = s.engine.fired := by
  rw [afterSweep]
  cases swept.2 <;> exact ⟨rfl, rfl⟩

theorem begin_of_isKill {c : Call} (hc : c.isKill = true) :
    (s.begin h c).1.engine.lifecycle = s.engine.lifecycle ∧
      (s.begin h c).1.engine.fired = s.engine.fired := by
  cases c with
  | kill => exact ⟨rfl, rfl⟩
  | killAll => exact afterSweep_killAll s _
  | _ => cases hc

theorem resume_of_isKill {task : Task} (htask : Progress.isKill (.inr task) = true) :
    (s.resume h task).1.engine.lifecycle = s.engine.lifecycle ∧
      (s.resume h task).1.engine.fired = s.engine.fired := by
  cases task with
  | kill => exact ⟨rfl, rfl⟩
  | killAll => exact afterSweep_killAll s _
  | _ => cases htask

/-- When the process of a build is reported whose follow-up is pending, and no failure is recorded,
the follow-up runs exactly if the process was a success. -/
theorem resume_unitRun_of_pending {f : FollowUp} (hf : f.later = [])
    (hlifecycle : s.engine.lifecycle = { phase := .running, pending := some f, success := true })
    (completion : Completion) :
    let state := s.engine.processes.stateAt completion.process
    let resumed := s.resume h (.unitRun completion)
    resumed.1.engine.lifecycle.phase = .idle ∧ resumed.1.engine.lifecycle.pending = none ∧
      resumed.1.engine.fired = s.engine.fired ++
        (if state.isSuccess then [{ label := f.label, sawPending := false, phase := .idle }]
          else []) ∧
      resumed.2 = .inl (.outcome (.completed state state.isSuccess)) := by
  intro state resumed
  obtain ⟨f', hpending, _, hsuccess, heq⟩ | ⟨hnot, success, heq⟩ :=
    Engine.complete_cases s.engine completion
  · rw [hlifecycle] at hpending
    cases hpending
    rw [Engine.fire_of_later_eq_nil _ hf] at heq
    simp [resumed, resume, answered, heq, state, hsuccess, Engine.hasPending]
  -- Something is pending and nothing has failed before, so it is the process that has failed.
  · have hfailed : state.isSuccess = false := by simpa [hlifecycle] using hnot
    simp [resumed, resume, answered, heq, hfailed, state]

end Session

namespace Interleaving

variable {h : Host} {x y : Interleaving} {e : Event} {place : Nat}
  {project configuration : String} {f : FollowUp}

/-- The follow-ups that ran, and what they saw. -/
def fired (x : Interleaving) : List Firing :=
  x.session.engine.fired

/-! ## What else may happen -/

/-- In this event somebody asks more of the engine than to kill processes, and it is not the call at
the place that goes on. -/
def disturbs (place : Nat) (x : Interleaving) : Event → Bool
  | .call c => !c.isKill
  | .resume other =>
    other != place && x.calls[other]?.any fun progress => progress.isRight && !progress.isKill
  | .supervise .. | .forward _ => false

/-- Other events leave builds and follow-ups alone, unless the call at the place goes on. -/
theorem next_of_not_disturbs (he : disturbs place x e = false) (hne : e ≠ .resume place) :
    (x.next h e).lifecycle = x.lifecycle ∧ (x.next h e).fired = x.fired := by
  cases e with
  | call c => exact Session.begin_of_isKill h x.session (by simpa [disturbs] using he)
  | resume other =>
    obtain heq | ⟨task, htask, _, heq⟩ := next_resume_cases h x other
    · rw [heq]
      exact ⟨rfl, rfl⟩
    -- Another call goes on, and can only be one that kills.
    · have hother : other ≠ place := fun hother => hne (congrArg Event.resume hother)
      rw [heq]
      exact Session.resume_of_isKill h x.session (by simpa [disturbs, htask, hother] using he)
  | supervise | forward => exact ⟨rfl, rfl⟩

/-! ## The request -/

/-- The process that a request for debugging has started. -/
def DebugProcess (h : Host) (x : Interleaving) (project configuration : String)
    (y : Interleaving) : Prop :=
  ∃ info command p,
    h.manifest.startupCommand x.session.engine.files project configuration = .ok (info, command) ∧
      y.processes[x.processes.length]? = some p ∧ p.channel = .startup ∧ p.command = command

/-- Where a request for debugging that was made at one moment has got to at another, and what has
become of builds and follow-ups. -/
inductive DebugStage (h : Host) (x : Interleaving) (project configuration : String) (f : FollowUp)
    (y : Interleaving) : Prop
  /-- It was refused since its channel has a live process; nothing has changed. -/
  | busy (live : x.processes.isLive .startup = true)
      (answer : y.calls[x.calls.length]? = some (.inl (.outcome (.busy .startup))))
      (lifecycle : y.lifecycle = x.lifecycle) (fired : y.fired = x.fired)
  /-- It fell back since there is no command to start; nothing has changed. -/
  | unprepared (reason : EngineError)
      (prepared : h.manifest.startupCommand x.session.engine.files project configuration =
        .error reason)
      (answer : y.calls[x.calls.length]? = some (.inl (.outcome (.fallback reason))))
      (lifecycle : y.lifecycle = x.lifecycle) (fired : y.fired = x.fired)
  /-- It fell back since its process cannot be launched; the build it has begun is over. -/
  | unlaunched (info : ProjectInfo) (command : BuildCommand) (cause : OsError)
      (prepared : h.manifest.startupCommand x.session.engine.files project configuration =
        .ok (info, command))
      (launched : h.launch x.session.engine.files command = .error cause)
      (answer : y.calls[x.calls.length]? =
        some (.inl (.outcome (.fallback (.process (.launch command.program cause))))))
      (phase : y.lifecycle.phase = .idle) (pending : y.lifecycle.pending = none)
      (fired : y.fired = x.fired)
  /-- It waits for its process, with its follow-up pending. -/
  | waits (unit : String)
      (process : DebugProcess h x project configuration y)
      (task : y.calls[x.calls.length]? =
        some (.inr (.unitRun { unit, process := x.processes.length })))
      (lifecycle : y.lifecycle = { phase := .running, pending := some f, success := true })
      (fired : y.fired = x.fired)
  /-- It has reported how its process ended. The follow-up ran, once, with nothing pending and no
  build under way, exactly if the process exited with code zero. -/
  | completed (state : ProcessState) (followUpFired : Bool)
      (process : DebugProcess h x project configuration y)
      (answer : y.calls[x.calls.length]? =
        some (.inl (.outcome (.completed state followUpFired))))
      (ended : y.processes.stateAt x.processes.length = state) (terminal : state.isTerminal = true)
      (success : followUpFired = true ↔ state = .exited (some 0))
      (fired : y.fired = x.fired ++
        if followUpFired then [{ label := f.label, sawPending := false, phase := .idle }] else [])
      (phase : y.lifecycle.phase = .idle) (pending : y.lifecycle.pending = none)

theorem DebugProcess.keeps {z : Interleaving}
    (hprocess : DebugProcess h x project configuration y) (hkeeps : y.processes.Keeps z.processes) :
    DebugProcess h x project configuration z := by
  obtain ⟨info, command, p, hcommand, hp, hchannel, heq⟩ := hprocess
  obtain ⟨p', hp', hkeeps⟩ := hkeeps _ p hp
  exact ⟨info, command, p', hcommand, hp', hkeeps.channel.trans hchannel,
    hkeeps.command.trans heq⟩

/-- How the request comes out at once. -/
theorem debugStage_call (h : Host) (x : Interleaving) (project configuration : String)
    (f : FollowUp) :
    DebugStage h x project configuration f
      (x.next h (.call (.debug project configuration f))) := by
  have hnew : (x.next h (.call (.debug project configuration f))).calls[x.calls.length]? =
      some (x.session.begin h (.debug project configuration f)).2 := List.getElem?_concat_length
  have hengine : (x.next h (.call (.debug project configuration f))).session.engine =
      (x.session.engine.debugStartup h project configuration f).1 := rfl
  have hbegun := Engine.debugBegun h x.session.engine project configuration f
  rw [Session.begin] at hnew
  generalize x.session.engine.debugStartup h project configuration f = result at *
  generalize x.next h (.call (.debug project configuration f)) = y at *
  have hlifecycle : y.lifecycle = result.1.lifecycle := congrArg Engine.lifecycle hengine
  have hfired : y.fired = result.1.fired := congrArg Engine.fired hengine
  have hprocesses : y.processes = result.1.processes := congrArg Engine.processes hengine
  cases hbegun with
  | busy live => exact .busy live hnew hlifecycle hfired
  | unprepared prepared _ _ fired lifecycle =>
    exact .unprepared _ prepared hnew (hlifecycle.trans lifecycle) (hfired.trans fired)
  | unlaunched prepared launched _ _ fired lifecycle =>
    rw [lifecycle] at hlifecycle
    exact .unlaunched _ _ _ prepared launched hnew (congrArg Lifecycle.phase hlifecycle)
      (congrArg Lifecycle.pending hlifecycle) (hfired.trans fired)
  | waits free prepared _ processes fired lifecycle =>
    have hp := congrArg (·[x.processes.length]?) (hprocesses.trans processes)
    exact .waits _ ⟨_, _, _, prepared, hp.trans List.getElem?_concat_length, rfl, rfl⟩ hnew
      (hlifecycle.trans lifecycle) (hfired.trans fired)

/-- What leaves builds, follow-ups and the request alone leaves it where it is. -/
theorem DebugStage.frame {z : Interleaving} (hstage : DebugStage h x project configuration f y)
    (hkeeps : y.processes.Keeps z.processes) (hcalls : z.calls[x.calls.length]? =
      y.calls[x.calls.length]?) (hlifecycle : z.lifecycle = y.lifecycle)
    (hfired : z.fired = y.fired) : DebugStage h x project configuration f z := by
  cases hstage with
  | busy live answer lifecycle fired =>
    exact .busy live (hcalls.trans answer) (hlifecycle.trans lifecycle) (hfired.trans fired)
  | unprepared reason prepared answer lifecycle fired =>
    exact .unprepared reason prepared (hcalls.trans answer) (hlifecycle.trans lifecycle)
      (hfired.trans fired)
  | unlaunched info command cause prepared launched answer phase pending fired =>
    exact .unlaunched info command cause prepared launched (hcalls.trans answer)
      (hlifecycle ▸ phase) (hlifecycle ▸ pending) (hfired.trans fired)
  | waits unit process task lifecycle fired =>
    exact .waits unit (process.keeps hkeeps) (hcalls.trans task) (hlifecycle.trans lifecycle)
      (hfired.trans fired)
  | completed state followUpFired process answer ended terminal success fired phase pending =>
    -- A process that has ended stays as it ended.
    have hreleased : y.processes.isReleased x.processes.length = true := by
      rw [Processes.isReleased, ended, terminal]
    exact .completed state followUpFired (process.keeps hkeeps) (hcalls.trans answer)
      ((hkeeps.stateAt_eq hreleased).trans ended) terminal success (hfired.trans fired)
      (hlifecycle ▸ phase) (hlifecycle ▸ pending)

theorem DebugStage.length_lt (hstage : DebugStage h x project configuration f y) :
    x.calls.length < y.calls.length := by
  cases hstage with
  | busy _ hcall | unprepared _ _ hcall | unlaunched _ _ _ _ _ hcall | waits _ _ hcall
    | completed _ _ _ hcall => exact (List.getElem?_eq_some_iff.1 hcall).1

/-- The request goes on when its process is released. -/
theorem DebugStage.resume (hstage : DebugStage h x project configuration f y)
    (hf : f.later = []) :
    DebugStage h x project configuration f (y.next h (.resume x.calls.length)) := by
  obtain heq | ⟨task, htask, hreleased, heq⟩ := next_resume_cases h y x.calls.length
  · rw [heq]
    exact hstage
  · have hkeeps := keeps_next h y (.resume x.calls.length)
    have hnew := getElem?_calls_resume (h := h) htask hreleased
    have hengine : (y.next h (.resume x.calls.length)).session.engine =
        (y.session.resume h task).1.engine := by rw [heq]
    generalize y.next h (.resume x.calls.length) = z at *
    cases hstage with
    | waits unit process hwaits lifecycle fired =>
      cases hwaits.symm.trans htask
      have hended := hkeeps.stateAt_eq hreleased
      obtain ⟨hphase, hpending, hfired, hanswer⟩ :=
        y.session.resume_unitRun_of_pending h hf lifecycle { unit, process := x.processes.length }
      refine .completed _ _ (process.keeps hkeeps) (hnew.trans (congrArg some hanswer)) hended
        hreleased ProcessState.isSuccess_iff ?_ ?_ ?_
      · rw [Interleaving.fired, hengine, hfired, ← fired]
        rfl
      · rw [Interleaving.lifecycle, hengine, hphase]
      · rw [Interleaving.lifecycle, hengine, hpending]
    | busy _ answer | unprepared _ _ answer | unlaunched _ _ _ _ _ answer
      | completed _ _ _ answer => cases answer.symm.trans htask

theorem DebugStage.next (hstage : DebugStage h x project configuration f y) (hf : f.later = [])
    (he : disturbs x.calls.length y e = false) :
    DebugStage h x project configuration f (y.next h e) := by
  by_cases hresume : e = .resume x.calls.length
  · rw [hresume]
    exact hstage.resume hf
  · obtain ⟨hlifecycle, hfired⟩ := next_of_not_disturbs (h := h) he hresume
    exact hstage.frame (keeps_next h y e) (getElem?_calls_next hstage.length_lt hresume) hlifecycle
      hfired

/-- A request for debugging whose follow-up queues nothing runs that follow-up exactly once if its
process exits with code zero, and never otherwise, from whatever state it is made in; and once its
process is released it is answered when it goes on. -/
theorem debugStage_run (h : Host) (x : Interleaving) (project configuration : String)
    {f : FollowUp} (hf : f.later = []) {events : List Event}
    (hquiet : ¬ Occurs h (fun y e => disturbs x.calls.length y e = true)
      (x.next h (.call (.debug project configuration f))) events) :
    let y := x.run h (.call (.debug project configuration f) :: events)
    DebugStage h x project configuration f y ∧
      (y.processes.isReleased x.processes.length = true →
        ∃ answer, (y.next h (.resume x.calls.length)).calls[x.calls.length]? =
          some (.inl answer)) := by
  intro y
  have hstage : DebugStage h x project configuration f y :=
    run_invariant_of_not_occurs (x := x.next h _)
      (fun _ _ he hstage => hstage.next hf (eq_false_of_ne_true he))
      (debugStage_call h x project configuration f) hquiet
  refine ⟨hstage, fun hreleased => ?_⟩
  cases hstage with
  | waits unit process task lifecycle fired =>
    obtain ⟨_, _, _, hanswer⟩ := y.session.resume_unitRun_of_pending h hf lifecycle
      { unit, process := x.processes.length }
    exact ⟨_, (getElem?_calls_resume task hreleased).trans (congrArg some hanswer)⟩
  | busy _ answer | unprepared _ _ answer | unlaunched _ _ _ _ _ answer
    | completed _ _ _ answer => exact ⟨_, answered_next answer _⟩

/-- An earlier build has failed, and its follow-up is still pending: a request made then runs its
own follow-up only. -/
theorem debugStage_run_sample :
    let stale : Lifecycle FollowUp :=
      { phase := .running, pending := some { label := "stale" }, success := false }
    let x : Interleaving :=
      { session := { engine := { files := sampleFiles, lifecycle := stale } } }
    let f : FollowUp := { label := "start" }
    let events : List Event :=
      [.supervise 0 (.observeExit (some 0)), .call .killAll, .supervise 0 .drained, .resume 0]
    let y := x.run sampleHost (.call (.debug "Game" "Debug" f) :: events)
    f.later = [] ∧
      ¬ Occurs sampleHost (fun y e => disturbs 0 y e = true)
        (x.next sampleHost (.call (.debug "Game" "Debug" f))) events ∧
      y.calls[0]? = some (.inl (.outcome (.completed (.exited (some 0)) true))) ∧
      y.fired = [{ label := "start", sawPending := false, phase := .idle }] ∧
      DebugStage sampleHost x "Game" "Debug" f y := by
  intro stale x f events y
  have hf : f.later = [] := rfl
  have hquiet : ¬ Occurs sampleHost (fun y e => disturbs 0 y e = true)
      (x.next sampleHost (.call (.debug "Game" "Debug" f))) events := by decide +kernel
  have hanswer : y.calls[0]? = some (.inl (.outcome (.completed (.exited (some 0)) true))) := by
    decide +kernel
  have hfired : y.fired = [{ label := "start", sawPending := false, phase := .idle }] := by
    decide +kernel
  exact ⟨hf, hquiet, hanswer, hfired,
    (debugStage_run sampleHost x "Game" "Debug" hf hquiet).1⟩

end Interleaving

end SoloBuild
