import SoloBuild.Proofs.InterceptGate
import SoloBuild.Proofs.KillLedger
import SoloBuild.Proofs.QuietEvents
import SoloBuild.Proofs.RequestOutcomes

/-!
# How an interception ends

Before the host runs a command, it asks what to do. The answer is the host's own command, unless the
host builds already, or the user keeps the build that runs, or a build is started in its place. So
whoever asks for a build has one in the end. This is said of one command, from every state and as
long as nobody else acts before the answer. What has become of the processes is compared with the
run in which the host has not asked.

## Key results

- `InterceptStage`: where a command has got to, and what it has started
- `intercepting_run`: what a command has done at any moment after the host has asked
- `exists_decision`: the host is told at last what to do
- `interceptOutcome_run`: what the host is told, and what that says about the processes
-/

namespace SoloBuild

namespace Processes

variable {ps ps' : Processes} {c : Channel} {i : Nat}

/-- Nobody has asked for the end of a live process on the channel. -/
def Unasked (ps : Processes) (c : Channel) : Prop :=
  ∀ (i : Nat) (p : BuildProcess), ps[i]? = some p → p.channel = c → p.isLive = true →
    p.killRequested = false

/-- The latest process of a channel stays the latest as long as none is started. -/
theorem Keeps.latest? (h : ps.Keeps ps') (hlength : ps'.length = ps.length) {p : BuildProcess}
    (hlatest : ps.latest? c = some (p, i)) : ∃ p', ps'.latest? c = some (p', i) := by
  obtain ⟨hp, hc, hlast⟩ := latest?_eq_some_iff.1 hlatest
  obtain ⟨p', hp', hkeeps⟩ := h i p hp
  refine ⟨p', latest?_eq_some_iff.2 ⟨hp', hkeeps.channel.trans hc, fun j q' hq' hq => ?_⟩⟩
  have hj : j < ps.length := hlength ▸ (List.getElem?_eq_some_iff.1 hq').1
  obtain ⟨_, hr, hkeeps⟩ := h j ps[j] (List.getElem?_eq_getElem hj)
  cases hr.symm.trans hq'
  exact hlast j ps[j] (List.getElem?_eq_getElem hj) (hkeeps.channel.symm.trans hq)

/-- A channel is free when its latest process is released. -/
theorem isLive_eq_false_of_latest? {p : BuildProcess} (hlatest : ps.latest? c = some (p, i))
    (hreleased : ps.isReleased i = true) : ps.isLive c = false := by
  obtain ⟨q, hq, hdead⟩ := isReleased_iff.1 hreleased
  cases (latest?_eq_some_iff.1 hlatest).1.symm.trans hq
  rw [isLive, hlatest]
  exact hdead

end Processes

namespace Engine

variable {e : Engine} {c : Channel} {result : Engine × (Outcome ⊕ Completion)}

/-- A request touches no process on another channel. -/
theorem Served.sameBeside (h : Served e c result) :
    e.processes.SameBeside result.1.processes c := by
  cases h with
  | busy => exact .refl _ _
  | fellBack _ processes => exact processes ▸ .refl _ _
  | started _ processes => exact processes ▸ Processes.sameBeside_concat rfl
  | waits _ processes => exact processes ▸ Processes.sameBeside_concat rfl

end Engine

namespace Session

/-- A command that is carried out at once finds its channel free, unless somebody else has asked for
the end of the build there. -/
theorem Admits.free {s : Session} {confirm : Bool} {request : CommandRequest}
    (hadmits : s.Admits confirm request)
    (hunasked : s.engine.processes.Unasked request.channel) :
    s.engine.processes.isLive request.channel = false := by
  refine eq_false_of_ne_true fun hlive => ?_
  obtain ⟨p, i, hlatest, hp⟩ := Processes.isLive_eq_true_iff.1 hlive
  obtain ⟨hi, hc, _⟩ := Processes.latest?_eq_some_iff.1 hlatest
  exact (hadmits.unhindered hlive).2 p i ⟨hlatest, hp, hunasked i p hi hc hp⟩

end Session

namespace Interleaving

open Processes

variable {h : Host} {x y z : Interleaving} {e : Event} {place : Nat} {confirm : Bool}
  {request : CommandRequest} {fell : Prop} {progress : Progress}

/-- Somebody has asked for the end of a process on the channel, and it is not released yet. -/
def killUnderWay (x : Interleaving) (c : Channel) : Bool :=
  x.calls.any fun progress => (Progress.asked? progress).any fun i =>
    x.processes[i]?.any fun p => p.channel == c && p.isLive

theorem Accounted.unasked (hx : x.Accounted) {c : Channel} (hnot : x.killUnderWay c = false) :
    x.processes.Unasked c := by
  intro i p hp hc hlive
  refine eq_false_of_ne_true fun hasked => ?_
  obtain ⟨place, hwaits⟩ := hx.awaited i p hp hasked hlive
  obtain ⟨task, hcall, htask⟩ := awaits?_eq_some_iff.1 hwaits
  refine ne_true_of_eq_false hnot (List.any_eq_true.2 ⟨_, List.mem_of_getElem? hcall, ?_⟩)
  simp [Progress.asked?, htask, hp, hc, hlive]

/-! ## The command -/

/-- In this event the command that the host asks about, in the call at a place, reaches the
engine. -/
inductive Reaches (place : Nat) (request : CommandRequest) (x : Interleaving) : Event → Prop
  | atOnce {confirm : Bool} (new : place = x.calls.length)
      (admitted : x.session.Admits confirm request) :
    Reaches place request x (.call (.intercept .preempt confirm request))
  | afterwards {process : Nat}
      (waits : x.calls[place]? = some (.inr (.interceptKill process request)))
      (released : x.processes.isReleased process = true) :
    Reaches place request x (.resume place)

/-- It reaches the engine, and the engine falls back to the host's own command. -/
def FallsBack (h : Host) (place : Nat) (request : CommandRequest) (x : Interleaving) (e : Event) :
    Prop :=
  Reaches place request x e ∧
    ∃ reason, (x.session.engine.serve h request).2 = .inl (.fallback reason)

/-- Where a command has got to that the host has asked about at one moment, and what it has done.
`fell` says that it has fallen back. -/
inductive InterceptStage (x : Interleaving) (confirm : Bool) (request : CommandRequest)
    (y : Interleaving) (fell : Prop) : Progress → Prop
  /-- The host builds, or the user keeps the build that runs. -/
  | refused (why : x.session.hostBuildRunning = true ∨
        x.processes.isLive request.channel = true ∧ confirm = false) (kept : ¬ fell) :
    InterceptStage x confirm request y fell (.inl (.decision .cancelDefault))
  /-- It waits for the end of the build that runs. -/
  | stopping {process : Nat} {p : BuildProcess}
      (latest : y.processes.latest? request.channel = some (p, process))
      (length : y.processes.length = x.processes.length) (kept : ¬ fell) :
    InterceptStage x confirm request y fell (.inr (.interceptKill process request))
  | fellBack (fallen : fell) :
    InterceptStage x confirm request y fell (.inl (.decision .runDefault))
  /-- It has started a process. -/
  | started {p : BuildProcess} (process : y.processes[x.processes.length]? = some p)
      (channel : p.channel = request.channel) (kept : ¬ fell) :
    InterceptStage x confirm request y fell (.inl (.decision .cancelDefault))
  /-- It has started a process, and waits for its end. -/
  | waits {unit : String} {p : BuildProcess} (process : y.processes[x.processes.length]? = some p)
      (channel : p.channel = request.channel) (kept : ¬ fell) :
    InterceptStage x confirm request y fell
      (.inr (.interceptRun { unit, process := x.processes.length }))

theorem InterceptStage.congr {fell' : Prop} (hs : InterceptStage x confirm request y fell progress)
    (hfell : fell' ↔ fell) : InterceptStage x confirm request y fell' progress :=
  propext hfell ▸ hs

/-- As long as no process is started, what else happens leaves a command where it is. -/
theorem InterceptStage.frame {y' : Interleaving}
    (hs : InterceptStage x confirm request y fell progress)
    (hkeeps : y.processes.Keeps y'.processes) (hlength : y'.processes.length = y.processes.length) :
    InterceptStage x confirm request y' fell progress := by
  cases hs with
  | refused why kept => exact .refused why kept
  | stopping latest length kept =>
    obtain ⟨_, hlatest⟩ := hkeeps.latest? hlength latest
    exact .stopping hlatest (hlength.trans length) kept
  | fellBack fallen => exact .fellBack fallen
  | started process channel kept =>
    obtain ⟨_, hp, hkept⟩ := hkeeps _ _ process
    exact .started hp (hkept.channel.trans channel) kept
  | waits process channel kept =>
    obtain ⟨_, hp, hkept⟩ := hkeeps _ _ process
    exact .waits hp (hkept.channel.trans channel) kept

/-- Where a command has got to that has reached the engine on a free channel. -/
theorem interceptStage_of_served {engine : Engine} {result : Engine × (Outcome ⊕ Completion)}
    (hserved : Engine.Served engine request.channel result)
    (hfree : engine.processes.isLive request.channel = false)
    (hlength : engine.processes.length = x.processes.length)
    (hprocesses : y.processes = result.1.processes) :
    InterceptStage x confirm request y (∃ reason, result.2 = .inl (.fallback reason))
      (result.2.map (fun outcome => .decision (.ofOutcome outcome)) .interceptRun) := by
  have hnew {p : BuildProcess} (hstart : y.processes = engine.processes ++ [p]) :
      y.processes[x.processes.length]? = some p := by
    rw [hstart, ← hlength, List.getElem?_concat_length]
  cases hserved with
  | busy live => cases hfree.symm.trans live
  | fellBack => exact .fellBack ⟨_, rfl⟩
  | started _ processes =>
    exact .started (hnew (hprocesses.trans processes)) rfl fun ⟨_, heq⟩ => by cases heq
  | waits _ processes =>
    dsimp only [Sum.map_inr]
    rw [hlength]
    exact .waits (hnew (hprocesses.trans processes)) rfl fun ⟨_, heq⟩ => by cases heq

/-- What a command has done that the host has asked about at one moment, and what happens without
it. -/
structure Intercepting (x : Interleaving) (confirm : Bool) (request : CommandRequest)
    (z y : Interleaving) (fell : Prop) : Prop where
  without : x.Without z
  undisturbed : x.Undisturbed y
  stage : ∃ progress, y.calls[x.calls.length]? = some progress ∧
    InterceptStage x confirm request y fell progress
  beside : z.processes.SameBeside y.processes request.channel
  /-- Whose end was asked for in between: only if the host did not build, and the user wanted it. -/
  asked : ∀ i, y.processes.IsAsked i →
    x.processes.IsAsked i ∨ x.session.hostBuildRunning = false ∧ confirm = true

/-- What a command does at once. -/
theorem intercepting_call (hunasked : x.processes.Unasked request.channel) :
    Intercepting x confirm request x (x.next h (.call (.intercept .preempt confirm request)))
      (FallsBack h x.calls.length request x (.call (.intercept .preempt confirm request))) := by
  have hcall : (x.next h (.call (.intercept .preempt confirm request))).calls[x.calls.length]? =
      some (x.session.intercept h confirm request).2 := List.getElem?_concat_length
  have hundisturbed := undisturbed_call h x (.intercept .preempt confirm request)
  have hsession : (x.next h (.call (.intercept .preempt confirm request))).session =
      (x.session.intercept h confirm request).1 := rfl
  generalize x.next h (.call (.intercept .preempt confirm request)) = y at *
  have hprocesses : y.processes =
      (x.session.intercept h confirm request).1.engine.processes := by rw [processes, hsession]
  have hadmitted : FallsBack h x.calls.length request x
      (.call (.intercept .preempt confirm request)) → x.session.Admits confirm request := by
    rintro ⟨⟨_, hadmits⟩ | _, _⟩
    exact hadmits
  obtain ⟨hhost, heq⟩ | ⟨hhost, hlive, hconfirm, heq⟩ | ⟨p, i, hhost, hconfirm, hkillable, heq⟩ |
      ⟨asked, hadmits, heq⟩ := Session.intercept_cases h x.session confirm request
  -- The host builds.
  · rw [heq] at hcall hprocesses
    refine ⟨.refl x, hundisturbed, ⟨_, hcall, .refused (.inl hhost) fun hfell => ?_⟩,
      hprocesses ▸ .refl _ _, fun i hi => .inl (by rwa [hprocesses] at hi)⟩
    cases hhost.symm.trans (hadmitted hfell).idle
  -- The user keeps the build that runs.
  · rw [heq] at hcall hprocesses
    refine ⟨.refl x, hundisturbed, ⟨_, hcall, .refused (.inr ⟨hlive, hconfirm⟩) fun hfell => ?_⟩,
      hprocesses ▸ .refl _ _, fun i hi => .inl (by rwa [hprocesses] at hi)⟩
    cases hconfirm.symm.trans ((hadmitted hfell).unhindered hlive).1
  -- The build that runs is asked to end, and its channel is free when it has been released.
  · rw [heq] at hcall hprocesses
    have hkeeps : x.processes.Keeps y.processes :=
      hprocesses ▸ keeps_supervise keeps_askToEnd x.processes i
    have hlength : y.processes.length = x.processes.length :=
      hprocesses ▸ length_supervise x.processes i _
    obtain ⟨_, hlatest⟩ := hkeeps.latest? hlength hkillable.latest
    have hlive := isLive_eq_true_iff.2 ⟨p, i, hkillable.latest, hkillable.live⟩
    have hchannel := (latest?_eq_some_iff.1 hkillable.latest).2.1
    exact ⟨.refl x, hundisturbed, ⟨_, hcall, .stopping hlatest hlength fun hfell =>
        ((hadmitted hfell).unhindered hlive).2 p i hkillable⟩,
      hprocesses ▸ sameBeside_askToEnd hkillable.getElem? hchannel,
      fun _ _ => .inr ⟨hhost, hconfirm⟩⟩
  -- Its channel is free.
  · have hchange := Session.change_runCommand h { x.session with asked } request
    rw [← heq, ← hprocesses] at hchange
    rw [heq, Session.runCommand_eq] at hcall hprocesses
    have hserved := Engine.served h x.session.engine request
    have hstage : InterceptStage x confirm request y _ _ :=
      interceptStage_of_served hserved (hadmits.free hunasked) rfl hprocesses
    refine ⟨.refl x, hundisturbed, ⟨_, hcall, hstage.congr ?_⟩, hprocesses ▸ hserved.sameBeside,
      fun i hi => .inl (hchange.isAsked_of_none hi)⟩
    exact and_iff_right (.atOnce rfl hadmits)

/-- What a command does when it goes on. -/
theorem InterceptStage.resume (hs : InterceptStage x confirm request y fell progress)
    (hcall : y.calls[x.calls.length]? = some progress) :
    let next := y.next h (.resume x.calls.length)
    (∃ progress, next.calls[x.calls.length]? = some progress ∧
        InterceptStage x confirm request next
          (fell ∨ FallsBack h x.calls.length request y (.resume x.calls.length)) progress) ∧
      y.processes.SameBeside next.processes request.channel ∧
      y.processes.Change next.processes none := by
  intro next
  obtain heq | ⟨task, htask, hreleased, heq⟩ := next_resume_cases h y x.calls.length
  -- When the command stays where it is, it has not reached the engine.
  · have hkept : ¬ FallsBack h x.calls.length request y (.resume x.calls.length) := by
      rintro ⟨_ | ⟨hwaits, hreleased⟩, _⟩
      have hnext := getElem?_calls_resume (h := h) hwaits hreleased
      rw [heq, hwaits, Option.some.injEq] at hnext
      exact Session.resume_ne_interceptKill h _ _ _ _ hnext.symm
    rw [show next = y from heq]
    exact ⟨⟨_, hcall, hs.congr (or_iff_left hkept)⟩, .refl _ _, .same⟩
  · have hnext := getElem?_calls_resume (h := h) htask hreleased
    have hprocesses : next.processes = (y.session.resume h task).1.engine.processes :=
      congrArg processes heq
    cases hs with
    | refused | fellBack | started => cases hcall.symm.trans htask
    -- The build that ran is released, and nobody has started another one on its channel.
    | stopping latest length kept =>
      cases hcall.symm.trans htask
      have hserved := Engine.served h y.session.engine request
      have hchange := Session.change_runCommand h y.session request
      rw [Session.resume, Session.runCommand_eq] at hnext hprocesses
      rw [Session.runCommand_eq] at hchange
      have hstage : InterceptStage x confirm request next _ _ :=
        interceptStage_of_served hserved (isLive_eq_false_of_latest? latest hreleased) length
          hprocesses
      refine ⟨⟨_, hnext, hstage.congr ?_⟩, hprocesses ▸ hserved.sameBeside, hprocesses ▸ hchange⟩
      rw [or_iff_right kept]
      exact and_iff_right (.afterwards hcall hreleased)
    | waits process channel kept =>
      cases hcall.symm.trans htask
      have hsame : next.processes = y.processes :=
        hprocesses.trans (Engine.processes_complete _ _)
      refine ⟨⟨_, hnext, .started (hsame ▸ process) channel ?_⟩, hsame ▸ .refl _ _, hsame ▸ .same⟩
      rintro (hfell | ⟨_ | ⟨hwaits, _⟩, _⟩)
      · exact kept hfell
      · cases hcall.symm.trans hwaits

theorem Intercepting.next (hi : Intercepting x confirm request z y fell)
    (he : x.isQuiet e = true) :
    Intercepting x confirm request (z.next h e) (y.next h e)
      (fell ∨ FallsBack h x.calls.length request y e) := by
  obtain ⟨progress, hcall, hs⟩ := hi.stage
  by_cases hne : e = .resume x.calls.length
  · subst hne
    obtain ⟨hstage, hbeside, hchange⟩ := hs.resume (h := h) hcall
    rw [hi.without.resume]
    refine ⟨hi.without, fun other hother => ?_, hstage, hi.beside.trans hbeside,
      fun i hasked => hi.asked i (hchange.isAsked_of_none hasked)⟩
    rw [getElem?_calls_resume_ne (Nat.ne_of_gt hother)]
    exact hi.undisturbed other hother
  · obtain ⟨hnext, hprocesses⟩ := hi.undisturbed.next (h := h) he hne
    have hlength : (y.next h e).processes.length = y.processes.length := by
      rw [hprocesses, length_supervised]
    have hkept : ¬ FallsBack h x.calls.length request y e := by
      rintro ⟨_ | _, _⟩
      · cases he
      · exact hne rfl
    refine ⟨hi.without.next he, hnext, ⟨progress, ?_, ?_⟩, ?_, fun i hasked => hi.asked i ?_⟩
    · rw [getElem?_calls_next (List.getElem?_eq_some_iff.1 hcall).1 hne, hcall]
    · exact (hs.frame (keeps_next h y e) hlength).congr (or_iff_left hkept)
    · rw [hprocesses, hi.without.processes_next he]
      exact hi.beside.supervised e
    · rw [hprocesses] at hasked
      exact isAsked_of_supervised hasked

/-- What a command has done at any moment after the host has asked, when nobody else acts. -/
theorem intercepting_run (confirm : Bool) (hunasked : x.processes.Unasked request.channel)
    {events : List Event} (hquiet : ∀ e ∈ events, x.isQuiet e = true) :
    Intercepting x confirm request (x.run h events)
      (x.run h (.call (.intercept .preempt confirm request) :: events))
      (Occurs h (FallsBack h x.calls.length request) x
        (.call (.intercept .preempt confirm request) :: events)) := by
  induction events using List.reverseRecOn with
  | nil => simpa [Occurs] using intercepting_call (h := h) hunasked
  | append_singleton events e ih =>
    rw [List.forall_mem_append] at hquiet
    rw [← List.cons_append, occurs_concat, run_concat, run_concat]
    exact (ih hquiet.1).next (hquiet.2 e (List.mem_singleton_self e))

/-! ## The answer -/

/-- The supervisor of a process takes the steps that are left until the process is released. -/
def releasing (process : Nat) : List Event :=
  [.supervise process (.observeExit none), .supervise process .drained, .supervise process .release]

theorem isReleased_releasing {i : Nat} {p : BuildProcess} (hp : x.processes[i]? = some p) :
    (x.run h (releasing i)).processes.isReleased i = true := by
  obtain ⟨channel, command, ran, supervision, killRequested⟩ := p
  have hrun : (x.run h (releasing i)).processes =
      ((x.processes.supervise i (.observeExit none)).supervise i .drained).supervise i
        .release := rfl
  simp only [hrun, isReleased, stateAt, supervise, List.getElem?_modify_eq, hp]
  -- From every point the three steps lead to the end of the process.
  cases supervision <;> rfl

/-- A call that waits goes on when the supervisor of the process it waits for has released it. -/
theorem exists_resumed {task : Task} (hcall : x.calls[place]? = some (.inr task)) {p : BuildProcess}
    (hp : x.processes[task.process]? = some p) :
    ∃ s : Session, (x.run h (releasing task.process ++ [.resume place])).calls[place]? =
      some (s.resume h task).2 := by
  rw [run_concat]
  exact ⟨_, getElem?_calls_resume (x := x.run h (releasing task.process)) hcall
    (isReleased_releasing hp)⟩

theorem quiet_releasing (x : Interleaving) (i : Nat) :
    ∀ e ∈ releasing i ++ [.resume x.calls.length], x.isQuiet e = true := by
  simp [releasing, isQuiet]

/-- A command that has started a process, and waits for it, is answered when it is released. -/
theorem exists_decision_of_waits (hunasked : x.processes.Unasked request.channel)
    {events : List Event} (hquiet : ∀ e ∈ events, x.isQuiet e = true) {completion : Completion}
    (hcall : (x.run h (.call (.intercept .preempt confirm request) :: events)).calls[
      x.calls.length]? = some (.inr (.interceptRun completion))) :
    ∃ more decision, (∀ e ∈ more, x.isQuiet e = true) ∧
      (x.run h (.call (.intercept .preempt confirm request) :: events ++ more)).calls[
        x.calls.length]? = some (.inl (.decision decision)) := by
  obtain ⟨_, hstart, hstage⟩ :=
    (intercepting_run (h := h) confirm hunasked hquiet).stage
  cases hcall.symm.trans hstart
  cases hstage with
  | waits process =>
    obtain ⟨s, hended⟩ := exists_resumed (h := h) hcall process
    exact ⟨_, _, quiet_releasing x _, by rw [run_append, hended, Session.resume]⟩

/-- A command is answered in the end, when the processes it waits for are released. -/
theorem exists_decision (hunasked : x.processes.Unasked request.channel)
    {events : List Event} (hquiet : ∀ e ∈ events, x.isQuiet e = true) :
    ∃ more decision, (∀ e ∈ more, x.isQuiet e = true) ∧
      (x.run h (.call (.intercept .preempt confirm request) :: events ++ more)).calls[
        x.calls.length]? = some (.inl (.decision decision)) := by
  obtain ⟨_, hcall, hstage⟩ :=
    (intercepting_run (h := h) confirm hunasked hquiet).stage
  cases hstage with
  | refused | fellBack | started => exact ⟨[], _, nofun, by rw [List.append_nil, hcall]⟩
  | waits => exact exists_decision_of_waits hunasked hquiet hcall
  | @stopping process _ latest =>
    obtain ⟨s, hwent⟩ := exists_resumed (h := h) hcall (latest?_eq_some_iff.1 latest).1
    rw [← run_append, Session.resume, Session.runCommand_eq] at hwent
    have hfreed := quiet_releasing x process
    cases hserved : (s.engine.serve h request).2 with
    | inl outcome =>
      rw [hserved] at hwent
      exact ⟨_, _, hfreed, hwent⟩
    -- It has started a process of its own, and is to wait again.
    | inr completion =>
      rw [hserved, List.cons_append] at hwent
      obtain ⟨more, decision, hmore, hended⟩ := exists_decision_of_waits hunasked
        (List.forall_mem_append.2 ⟨hquiet, hfreed⟩) hwent
      refine ⟨_, decision, List.forall_mem_append.2 ⟨hfreed, hmore⟩, ?_⟩
      rw [← List.append_assoc]
      exact hended

/-- A process that ends as killed was asked to end. -/
theorem isAsked_of_killed (files : FileTree) (events : List Event) {i : Nat}
    (hkilled : (run h (fresh files) events).processes.stateAt i = .killed) :
    (run h (fresh files) events).processes.IsAsked i := by
  rw [stateAt] at hkilled
  split at hkilled
  · next p hp =>
    have hoccurs :=
      asksWatched_of_endsByKill files events hp (BuildProcess.endsByKill_of_state hkilled)
    obtain ⟨before, e, after, rfl, _, hasked⟩ := occurs_iff_exists.1 hoccurs
    rw [run_append, run_cons]
    exact hasked.keeps (keeps_run h _ after)
  · cases hkilled

/-- In the listening mode a command is left to the host, and the processes are those that there
would be without it. -/
theorem listening_run (confirm : Bool) (request : CommandRequest) {events : List Event}
    (hquiet : ∀ e ∈ events, x.isQuiet e = true) :
    let y := x.run h (.call (.intercept .listen confirm request) :: events)
    x.Undisturbed y ∧ y.calls[x.calls.length]? = some (.inl (.decision .runDefault)) ∧
      y.processes = (x.run h events).processes := by
  induction events using List.reverseRecOn with
  | nil =>
    refine ⟨undisturbed_call h x _, List.getElem?_concat_length.trans ?_, ?_⟩
    · cases request <;> rfl
    · cases request <;> rfl
  | append_singleton events e ih =>
    rw [List.forall_mem_append] at hquiet
    have he := hquiet.2 e (List.mem_singleton_self e)
    obtain ⟨hundisturbed, hcall, hsame⟩ := ih hquiet.1
    obtain ⟨hnext, hprocesses⟩ := hundisturbed.next_of_answered (h := h) he hcall
    rw [← List.cons_append, run_concat, run_concat]
    refine ⟨hnext, answered_next hcall e, ?_⟩
    rw [hprocesses, hsame, (without_run hquiet.1).processes_next he]

/-- What becomes of a command that the host asks about at one moment, in one mode and with one wish
of the user, after some events in which nobody else acts. -/
structure InterceptOutcome (h : Host) (x : Interleaving) (mode : InterceptMode) (confirm : Bool)
    (request : CommandRequest) (events : List Event) (y z : Interleaving) : Prop where
  /-- In the listening mode the host runs its own command, and no process is started or killed. -/
  listens : mode = .listen →
    y.calls[x.calls.length]? = some (.inl (.decision .runDefault)) ∧ y.processes = z.processes
  /-- In the other mode it runs its own command exactly if the engine was asked for a build, and
  fell back. -/
  fallsBack : mode = .preempt →
    (y.calls[x.calls.length]? = some (.inl (.decision .runDefault)) ↔
      Occurs h (FallsBack h x.calls.length request) x
        (.call (.intercept mode confirm request) :: events))
  /-- The host's own command is cancelled only if the host builds, or the user has kept the build
  that runs on the channel of the command, or the command has started a process there. -/
  cancels : y.calls[x.calls.length]? = some (.inl (.decision .cancelDefault)) →
    x.session.hostBuildRunning = true ∨
      (x.processes.isLive request.channel = true ∧ confirm = false) ∨
      z.processes.length = x.processes.length ∧
        ∃ p, y.processes[x.processes.length]? = some p ∧ p.channel = request.channel
  /-- A process that was live on the channel is killed only if the host does not build, and the user
  wants that. -/
  kills : ∀ i p, x.processes[i]? = some p → p.channel = request.channel → p.isLive = true →
    y.processes.stateAt i = .killed →
      mode = .preempt ∧ x.session.hostBuildRunning = false ∧ confirm = true
  /-- On other channels everything is as if the host had not asked. -/
  beside : z.processes.SameBeside y.processes request.channel
  /-- The host is told in the end, when the processes that the command waits for are released. -/
  decides : ∃ more decision, (∀ e ∈ more, x.isQuiet e = true) ∧
    (y.run h more).calls[x.calls.length]? = some (.inl (.decision decision))

theorem interceptOutcome_run (h : Host) (files : FileTree) (before : List Event)
    (mode : InterceptMode) (confirm : Bool) (request : CommandRequest) (events : List Event)
    (hnoKill : (run h (fresh files) before).killUnderWay request.channel = false)
    (hquiet : ∀ e ∈ events, (run h (fresh files) before).isQuiet e = true) :
    let x := run h (fresh files) before
    InterceptOutcome h x mode confirm request events
      (x.run h (.call (.intercept mode confirm request) :: events)) (x.run h events) := by
  intro x
  have hunasked : x.processes.Unasked request.channel :=
    (accounted_run files before).unasked hnoKill
  have hwithout : x.Without (x.run h events) := without_run hquiet
  -- Whose process has ended as killed has been asked for its end, since the host has asked.
  have hkilled {i : Nat} {p : BuildProcess} (hp : x.processes[i]? = some p)
      (hc : p.channel = request.channel) (hlive : p.isLive = true)
      (hkilled : (x.run h (.call (.intercept mode confirm request) :: events)).processes.stateAt i =
        .killed) :
      (x.run h (.call (.intercept mode confirm request) :: events)).processes.IsAsked i ∧
        ¬ x.processes.IsAsked i := by
    rw [← run_append] at hkilled ⊢
    refine ⟨isAsked_of_killed files _ hkilled, ?_⟩
    rintro ⟨q, hq, hasked⟩
    cases hp.symm.trans hq
    cases (hunasked i p hp hc hlive).symm.trans hasked
  cases mode with
  | listen =>
    obtain ⟨_, hcall, hsame⟩ := listening_run (h := h) confirm request hquiet
    refine ⟨fun _ => ⟨hcall, hsame⟩, nofun, fun hcancelled => ?_, fun i p hp hc hlive hstate => ?_,
      hsame ▸ .refl _ _, [], _, nofun, hcall⟩
    · cases hcall.symm.trans hcancelled
    · obtain ⟨hasked, hnot⟩ := hkilled hp hc hlive hstate
      exact absurd (hwithout.asked i (hsame ▸ hasked)) hnot
  | preempt =>
    have hi := intercepting_run (h := h) confirm hunasked hquiet
    obtain ⟨progress, hcall, hstage⟩ := hi.stage
    refine ⟨nofun, fun _ => ?_, fun hcancelled => ?_, fun i p hp hc hlive hstate => ?_, hi.beside,
      ?_⟩
    · rw [hcall]
      cases hstage with
      | refused _ kept => exact ⟨nofun, fun hfell => absurd hfell kept⟩
      | stopping _ _ kept => exact ⟨nofun, fun hfell => absurd hfell kept⟩
      | fellBack fallen => exact ⟨fun _ => fallen, fun _ => rfl⟩
      | started _ _ kept => exact ⟨nofun, fun hfell => absurd hfell kept⟩
      | waits _ _ kept => exact ⟨nofun, fun hfell => absurd hfell kept⟩
    · rw [hcall] at hcancelled
      cases hstage with
      | refused why => exact why.imp_right .inl
      | started process channel => exact .inr (.inr ⟨hwithout.processes, _, process, channel⟩)
      | stopping | fellBack | waits => cases hcancelled
    · obtain ⟨hasked, hnot⟩ := hkilled hp hc hlive hstate
      exact ⟨rfl, (hi.asked i hasked).resolve_left hnot⟩
    · obtain ⟨more, decision, hmore, hended⟩ := exists_decision hunasked hquiet
      rw [run_append] at hended
      exact ⟨more, decision, hmore, hended⟩

theorem interceptOutcome_run_sample :
    let request : CommandRequest := .debug "Game" "Debug" { label := "again" }
    let x := run sampleHost (fresh sampleFiles)
      [.call (.debug "Game" "Debug" { label := "start" })]
    let events : List Event := [.supervise 0 .takeKill, .supervise 0 .release, .resume 0, .resume 1,
      .supervise 1 (.observeExit (some 0)), .supervise 1 .drained, .resume 1]
    let y := x.run sampleHost (.call (.intercept .preempt true request) :: events)
    x.killUnderWay request.channel = false ∧ (∀ e ∈ events, x.isQuiet e = true) ∧
      y.calls[1]? = some (.inl (.decision .cancelDefault)) ∧
      y.processes.map (·.state) = [.killed, .exited (some 0)] ∧
      InterceptOutcome sampleHost x .preempt true request events y (x.run sampleHost events) := by
  intro request x events y
  have hnoKill : x.killUnderWay request.channel = false := by decide +kernel
  have hquiet : ∀ e ∈ events, x.isQuiet e = true := by decide +kernel
  exact ⟨hnoKill, hquiet, by decide +kernel, by decide +kernel,
    interceptOutcome_run sampleHost sampleFiles _ .preempt true request events hnoKill hquiet⟩

end Interleaving

end SoloBuild
