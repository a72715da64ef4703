import SoloBuild.Proofs.FollowUps

/-!
# The host's calls

The host tells a session about its own builds, one call at a time, while requests for debugging are
made and go on. This module says once what an event of such a run does to the follow-ups, and which
of the host's calls wait.

## Key results

- `debugSignals`: the events in which a request for debugging tells the lifecycle something
- `HostBegins`: the events in which a build of the host begins
- `hostStep_next`: what an event does to the follow-ups
- `hostTasks_next`: at most one call of the host waits
-/

namespace SoloBuild

/-- With this call the host tells about its own builds. -/
def Call.isHost : Call → Bool
  | .deferFollowUp _ | .buildBegin | .unitDone .. | .buildDone => true
  | _ => false

/-- With this call somebody asks for a build that is to be debugged. -/
def Call.isDebug : Call → Bool
  | .debug .. => true
  | _ => false

/-- The labels of the follow-up that comes with a call. -/
def Call.labels : Call → List String
  | .debug _ _ f | .deferFollowUp f | .requestFollowUp f | .intercept _ _ (.debug _ _ f) => f.labels
  | _ => []

/-- The begin of a build of the host, which waits for processes to be released. -/
def isHostBegin : Progress → Bool
  | .inr (.hostBegin _) => true
  | _ => false

@[simp] theorem isHostBegin_hostBegin (sweep : Processes.Sweep) :
    isHostBegin (.inr (.hostBegin sweep)) = true := rfl

namespace Engine

/-- A request for debugging would begin a build. -/
def beginsDebug (h : Host) (e : Engine) (project configuration : String) : Bool :=
  !e.isRunning .startup && (h.manifest.startupCommand e.files project configuration).toOption.isSome

/-- A request for debugging that begins no build tells the lifecycle nothing. -/
theorem debugStartup_of_not_begins {h : Host} {e : Engine} {project configuration : String}
    (hbegins : e.beginsDebug h project configuration = false) (f : FollowUp) :
    (e.debugStartup h project configuration f).1.lifecycle = e.lifecycle ∧
      (e.debugStartup h project configuration f).1.fired = e.fired := by
  rw [debugStartup]
  split
  · exact ⟨rfl, rfl⟩
  · next hrunning =>
    dsimp only
    split
    · exact ⟨rfl, rfl⟩
    · next hcommand =>
      rw [beginsDebug, eq_false_of_ne_true hrunning] at hbegins
      dsimp only [tell] at hcommand
      rw [hcommand] at hbegins
      cases hbegins

/-- A request for debugging that begins a build drops the follow-up that was pending. -/
theorem lacks_debugStartup_of_begins {h : Host} {e : Engine} {project configuration label : String}
    (hbegins : e.beginsDebug h project configuration = true) {f : FollowUp}
    (hf : label ∉ f.labels) :
    (e.debugStartup h project configuration f).1.Lacks label ∧
      (e.debugStartup h project configuration f).1.ran = e.ran := by
  have hbegun := debugBegun h e project configuration f
  generalize e.debugStartup h project configuration f = result at hbegun
  rw [beginsDebug, Bool.and_eq_true, Bool.not_eq_true', Option.isSome_iff_exists] at hbegins
  obtain ⟨hfree, _, hprepared⟩ := hbegins
  cases hbegun with
  | busy live => cases live.symm.trans hfree
  | unprepared prepared =>
    rw [prepared] at hprepared
    cases hprepared
  | unlaunched _ _ _ _ fired lifecycle =>
    refine ⟨fun g hg => ?_, congrArg (List.map Firing.label) fired⟩
    rw [lifecycle] at hg
    cases hg
  | waits _ _ _ _ fired lifecycle =>
    refine ⟨fun g hg => ?_, congrArg (List.map Firing.label) fired⟩
    rw [lifecycle] at hg
    cases hg
    exact hf

end Engine

namespace Session

variable (s : Session)

/-- When a build of the host begins, the follow-up that was kept for it becomes the pending one. -/
theorem hostBegun_followUps :
    s.hostBegun.engine.lifecycle =
        { phase := .running, pending := s.deferred, success := true } ∧
      s.hostBegun.engine.ran = s.engine.ran ∧ s.hostBegun.deferred = none := by
  rw [hostBegun]
  split
  · next hdeferred =>
    rw [show s.deferred = none from hdeferred]
    exact ⟨rfl, rfl, hdeferred⟩
  · next hdeferred =>
    rw [show s.deferred = some _ from hdeferred]
    exact ⟨rfl, rfl, rfl⟩

/-- The begin of a build of the host waits and leaves the follow-ups alone, or is told to them. -/
theorem afterSweep_hostBegin_cases (killed : Nat) (cs : List Channel) {swept : Session × Progress}
    (hswept :
      s.afterSweep (s.engine.processes.sweep killed cs) .hostBegin begunAfterKills = swept) :
    swept.1.engine.ran = s.engine.ran ∧
      ((swept.2 = .inl .nothing ∧ swept.1.deferred = none ∧
          swept.1.engine.lifecycle =
            { phase := .running, pending := s.deferred, success := true }) ∨
        (∃ sweep, swept.2 = .inr (.hostBegin sweep)) ∧ swept.1.deferred = s.deferred ∧
          swept.1.engine.lifecycle = s.engine.lifecycle) := by
  subst hswept
  obtain ⟨heq, _⟩ | ⟨_, _, _, _, _, _, _, _, heq⟩ :=
    afterSweep_cases s killed cs .hostBegin begunAfterKills
  · obtain ⟨hlifecycle, hran, hdeferred⟩ := s.hostBegun_followUps
    rw [heq, begunAfterKills]
    exact ⟨hran, .inl ⟨rfl, hdeferred, hlifecycle⟩⟩
  · rw [heq]
    exact ⟨rfl, .inr ⟨⟨_, rfl⟩, rfl, rfl⟩⟩

end Session

namespace Interleaving

/-- So many builds of the host wait to begin. -/
def hostWaiting (x : Interleaving) : Nat :=
  x.calls.countP isHostBegin

/-- The follow-up that is kept for the host's next build. -/
def deferred (x : Interleaving) : Option FollowUp :=
  x.session.deferred

/-- In this event a request for debugging tells the lifecycle something: it begins a build, or
reports the end of one. -/
def debugSignals (h : Host) (x : Interleaving) : Event → Bool
  | .call (.debug project configuration _) => x.session.engine.beginsDebug h project configuration
  | .resume place =>
    match x.calls[place]? with
    | some (.inr (.unitRun completion)) => x.processes.isReleased completion.process
    | _ => false
  | _ => false

/-- A build of the host begins in this event: the call that asked for it is answered. -/
def HostBegins (h : Host) (x : Interleaving) (e : Event) : Prop :=
  (e = .call .buildBegin ∨ 0 < x.hostWaiting) ∧ (x.next h e).hostWaiting = 0

instance (h : Host) (x : Interleaving) (e : Event) : Decidable (HostBegins h x e) :=
  inferInstanceAs (Decidable (_ ∧ _))

/-- An event that can come in such a run: a call of the host, when none waits, or a step of anything
else. -/
structure HostEvent (x : Interleaving) (e : Event) : Prop where
  call : ∀ c, e = .call c → c.isHost = true ∨ c.isDebug = true
  serial : ∀ c, e = .call c → c.isHost = true → x.hostWaiting = 0

/-- No follow-up with the label comes with an event. -/
def Admits (label : String) (e : Event) : Prop :=
  ∀ c, e = .call c → label ∉ c.labels

/-- The calls that wait in such a run. -/
structure HostTasks (x : Interleaving) : Prop where
  tasks : ∀ (place : Nat) (task : Task), x.calls[place]? = some (.inr task) →
    (∃ completion, task = .unitRun completion) ∨ ∃ sweep, task = .hostBegin sweep
  alone : x.hostWaiting ≤ 1

/-- What an event does to the follow-ups. -/
inductive HostStep (h : Host) (x : Interleaving) (e : Event) (y : Interleaving) : Prop where
  /-- It does nothing to them. The begin of a build of the host may start to wait. -/
  | still (hsignals : debugSignals h x e = false)
      (hcall : ∀ c, e = .call c → c.isHost = true → c = .buildBegin)
      (hwaiting : y.hostWaiting = x.hostWaiting + if e = .call .buildBegin then 1 else 0)
      (hlifecycle : y.lifecycle = x.lifecycle) (hran : y.ran = x.ran)
      (hdeferred : y.deferred = x.deferred)
  /-- A request for debugging tells the lifecycle something. -/
  | debug (hsignals : debugSignals h x e = true) (hwaiting : y.hostWaiting = x.hostWaiting)
      (hdeferred : y.deferred = x.deferred)
      (hwithout : ∀ label, x.session.engine.Lacks label → Admits label e →
        Engine.Without label x.session.engine y.session.engine)
  /-- A follow-up is kept for the host's next build. -/
  | defer (f : FollowUp) (he : e = .call (.deferFollowUp f))
      (hwaiting : y.hostWaiting = x.hostWaiting) (hlifecycle : y.lifecycle = x.lifecycle)
      (hran : y.ran = x.ran) (hdeferred : y.deferred = some f)
  /-- A build of the host has begun. -/
  | begun (hsignals : debugSignals h x e = false)
      (he : e = .call .buildBegin ∨ 0 < x.hostWaiting) (hwaiting : y.hostWaiting = 0)
      (hlifecycle : y.lifecycle = { phase := .running, pending := x.deferred, success := true })
      (hran : y.ran = x.ran) (hdeferred : y.deferred = none)
  /-- A unit of the host's build has ended. -/
  | unitDone (unit : String) (success : Bool) (he : e = .call (.unitDone unit success))
      (hwaiting : y.hostWaiting = x.hostWaiting)
      (hlifecycle : y.lifecycle = (x.lifecycle.handle (.unitDone unit success)).1)
      (hran : y.ran = x.ran) (hdeferred : y.deferred = x.deferred)
  /-- The host's build has ended. -/
  | buildDone (he : e = .call .buildDone) (hwaiting : y.hostWaiting = x.hostWaiting)
      (hengine : y.session.engine = (x.session.engine.signal .done).1)
      (hdeferred : y.deferred = x.deferred)

variable {h : Host} {x : Interleaving} {e : Event} {g : FollowUp}

theorem hostWaiting_call (c : Call) :
    (x.next h (.call c)).hostWaiting =
      x.hostWaiting + if isHostBegin (x.session.begin h c).2 then 1 else 0 := by
  rw [hostWaiting, next, List.countP_append, List.countP_singleton]
  rfl

/-- A call that goes on waits no longer, or again. -/
theorem hostWaiting_resume {place : Nat} {task : Task} (htask : x.calls[place]? = some (.inr task))
    (session : Session) (progress : Progress) :
    hostWaiting { session, calls := x.calls.set place progress } +
        (if isHostBegin (.inr task) then 1 else 0) =
      x.hostWaiting + if isHostBegin progress then 1 else 0 := by
  obtain ⟨hplace, htask⟩ := List.getElem?_eq_some_iff.1 htask
  rw [hostWaiting, List.countP_set hplace, htask, hostWaiting]
  by_cases hbegin : isHostBegin (.inr task) = true
  · have hpos : 0 < x.calls.countP isHostBegin :=
      List.countP_pos_iff.2 ⟨_, List.getElem_mem hplace, htask ▸ hbegin⟩
    rw [if_pos hbegin]
    omega
  · rw [if_neg hbegin]
    omega

/-- The two ways in which a request for debugging tells the lifecycle something. -/
theorem debugSignals_cases (hsignals : debugSignals h x e = true) :
    (∃ project configuration f, e = .call (.debug project configuration f) ∧
        x.session.engine.beginsDebug h project configuration = true) ∨
      ∃ place completion, e = .resume place ∧
        x.calls[place]? = some (.inr (.unitRun completion)) ∧
        x.processes.isReleased completion.process = true := by
  cases e with
  | call c =>
    cases c with
    | debug project configuration f => exact .inl ⟨project, configuration, f, rfl, hsignals⟩
    | _ => cases hsignals
  | resume place =>
    rw [debugSignals] at hsignals
    split at hsignals
    · next completion htask => exact .inr ⟨place, completion, rfl, htask, hsignals⟩
    · cases hsignals
  | supervise | forward => cases hsignals

theorem hostStep_next (hx : x.HostTasks) (he : x.HostEvent e) :
    HostStep h x e (x.next h e) := by
  cases e with
  | call c =>
    have hwaiting := hostWaiting_call (h := h) (x := x) c
    cases c with
    | debug project configuration f =>
      have hnotBegin :
          isHostBegin (x.session.begin h (.debug project configuration f)).2 = false := by
        obtain ⟨_, ⟨outcome, hanswer, _⟩ | ⟨completion, hwait, _⟩⟩ :=
          Session.begin_debug_cases h x.session project configuration f
        · rw [hanswer]
          rfl
        · rw [hwait]
          rfl
      rw [hnotBegin] at hwaiting
      -- A request that begins no build tells the lifecycle nothing.
      cases hbegins : x.session.engine.beginsDebug h project configuration with
      | false =>
        obtain ⟨hlifecycle, hfired⟩ := Engine.debugStartup_of_not_begins hbegins f
        refine .still hbegins (fun c hc hhost => ?_) (by simpa using hwaiting) hlifecycle
          (congrArg (List.map Firing.label) hfired) rfl
        cases hc
        cases hhost
      | true =>
        refine .debug hbegins hwaiting rfl fun label hlacks hadmits => ?_
        exact Engine.without_debugStartup h hlacks project configuration (hadmits _ rfl)
    | deferFollowUp f => exact .defer f rfl hwaiting rfl rfl rfl
    | buildBegin =>
      obtain ⟨hran, ⟨hanswer, hdeferred, hlifecycle⟩ | ⟨⟨sweep, hwait⟩, hdeferred, hlifecycle⟩⟩ :=
        Session.afterSweep_hostBegin_cases { x.session with hostBuildRunning := true } 0
          Channel.all rfl
      · refine .begun rfl (.inl rfl) ?_ hlifecycle hran hdeferred
        rw [hwaiting, he.serial _ rfl rfl, Session.begin, hanswer]
        rfl
      · refine .still rfl (fun c hc _ => (Event.call.inj hc).symm) ?_ hlifecycle hran hdeferred
        rw [hwaiting, Session.begin, hwait]
        simp [isHostBegin]
    | unitDone unit success => exact .unitDone unit success rfl hwaiting rfl rfl rfl
    | buildDone => exact .buildDone rfl hwaiting rfl rfl
    | _ =>
      obtain hhost | hdebug := he.call _ rfl
      · cases hhost
      · cases hdebug
  | resume place =>
    cases hsignals : debugSignals h x (.resume place) with
    | true =>
      obtain ⟨_, _, _, hc, _⟩ | ⟨_, completion, hc, htask, hreleased⟩ := debugSignals_cases hsignals
      · cases hc
      · cases hc
        have hwaiting := hostWaiting_resume htask
          (x.session.resume h (.unitRun completion)).1 (x.session.resume h (.unitRun completion)).2
        rw [next_resume_of_isReleased htask hreleased]
        exact .debug hsignals hwaiting rfl fun label hlacks _ =>
          Engine.without_complete hlacks completion
    | false =>
      obtain heq | ⟨task, htask, hreleased, heq⟩ := next_resume_cases h x place
      · rw [heq]
        exact .still hsignals (fun _ hc => by cases hc) (by simp) rfl rfl rfl
      · have hwaiting :=
          hostWaiting_resume htask (x.session.resume h task).1 (x.session.resume h task).2
        rw [heq]
        obtain ⟨completion, rfl⟩ | ⟨sweep, rfl⟩ := hx.tasks place task htask
        · have hreports : debugSignals h x (.resume place) = true := by
            rw [debugSignals, htask]
            exact hreleased
          cases hsignals.symm.trans hreports
        -- It is the only call of the host that waits: when it ends, none is left.
        · have hpos : 0 < x.hostWaiting :=
            List.countP_pos_iff.2 ⟨_, List.mem_of_getElem? htask, rfl⟩
          have halone := hx.alone
          obtain ⟨hran, ⟨hanswer, hdeferred, hlifecycle⟩ |
              ⟨⟨sweep', hwait⟩, hdeferred, hlifecycle⟩⟩ :=
            Session.afterSweep_hostBegin_cases x.session (sweep.killed + 1) sweep.rest rfl
          · refine .begun hsignals (.inr hpos) ?_ hlifecycle hran hdeferred
            have hended : isHostBegin (x.session.resume h (.hostBegin sweep)).2 = false :=
              congrArg isHostBegin hanswer
            rw [hended, isHostBegin_hostBegin, if_pos rfl, if_neg Bool.false_ne_true] at hwaiting
            omega
          · refine .still hsignals (fun _ hc => by cases hc) ?_ hlifecycle hran hdeferred
            have hbegin : isHostBegin (x.session.resume h (.hostBegin sweep)).2 = true :=
              congrArg isHostBegin hwait
            rw [hbegin, isHostBegin_hostBegin] at hwaiting
            rw [if_neg fun hc => by cases hc]
            exact Nat.add_right_cancel hwaiting
  | supervise process step =>
    exact .still rfl (fun _ hc => by cases hc) (by simp; rfl) rfl rfl rfl
  | forward line =>
    exact .still rfl (fun _ hc => by cases hc) (by simp; rfl) rfl rfl rfl

/-- After an event of such a run only these calls wait, and at most one of them is the host's. -/
theorem hostTasks_next (hx : x.HostTasks) (he : x.HostEvent e) :
    (x.next h e).HostTasks := by
  refine ⟨fun place task hcall => ?_, ?_⟩
  · obtain hcall | ⟨c, rfl, _, htask⟩ | ⟨waiting, _, hwaiting, _, htask, _⟩ :=
      getElem?_calls_next_cases hcall
    · exact hx.tasks place task hcall
    · cases c with
      | debug project configuration f =>
        obtain ⟨_, ⟨outcome, hanswer, _⟩ | ⟨completion, hwait, _⟩⟩ :=
          Session.begin_debug_cases h x.session project configuration f
        · cases hanswer.symm.trans htask
        · cases hwait.symm.trans htask
          exact .inl ⟨_, rfl⟩
      | buildBegin =>
        obtain ⟨_, ⟨hanswer, _⟩ | ⟨⟨sweep, hwait⟩, _⟩⟩ :=
          Session.afterSweep_hostBegin_cases { x.session with hostBuildRunning := true } 0
            Channel.all rfl
        · cases hanswer.symm.trans htask
        · cases hwait.symm.trans htask
          exact .inr ⟨_, rfl⟩
      | deferFollowUp | unitDone | buildDone => cases htask
      | _ =>
        obtain hhost | hdebug := he.call _ rfl
        · cases hhost
        · cases hdebug
    · obtain ⟨completion, rfl⟩ | ⟨sweep, rfl⟩ := hx.tasks place waiting hwaiting
      · cases htask
      · obtain ⟨_, ⟨hanswer, _⟩ | ⟨⟨sweep', hwait⟩, _⟩⟩ :=
          Session.afterSweep_hostBegin_cases x.session (sweep.killed + 1) sweep.rest rfl
        · cases hanswer.symm.trans htask
        · cases hwait.symm.trans htask
          exact .inr ⟨_, rfl⟩
  · have halone := hx.alone
    cases hostStep_next (h := h) hx he with
    | still _ hcall hwaiting =>
      split at hwaiting
      · next hbegin =>
        rw [he.serial _ hbegin rfl] at hwaiting
        exact Nat.le_of_eq hwaiting
      · exact hwaiting ▸ halone
    | begun _ _ hwaiting => exact hwaiting ▸ Nat.zero_le 1
    | debug _ hwaiting | defer _ _ hwaiting | unitDone _ _ _ hwaiting | buildDone _ hwaiting =>
      exact hwaiting ▸ halone

/-! ## Runs -/

/-- A run of such events. -/
structure HostRun (h : Host) (x : Interleaving) (events : List Event) : Prop where
  calls : ∀ c ∈ madeCalls events, c.isHost = true ∨ c.isDebug = true
  /-- The host makes no call while one of its builds waits to begin. -/
  serial : ¬ Occurs h (fun y e => e.call?.any Call.isHost = true ∧ 0 < y.hostWaiting) x events

theorem HostRun.append {events more : List Event} (hrun : HostRun h x (events ++ more)) :
    HostRun h x events ∧ HostRun h (x.run h events) more := by
  obtain ⟨hcalls, hserial⟩ := hrun
  rw [madeCalls_append] at hcalls
  rw [occurs_append, not_or] at hserial
  exact ⟨⟨fun c hc => hcalls c (List.mem_append_left _ hc), hserial.1⟩,
    ⟨fun c hc => hcalls c (List.mem_append_right _ hc), hserial.2⟩⟩

/-- What such a run says about an event of it. -/
theorem HostRun.event (hrun : HostRun h x [e]) : x.HostEvent e := by
  obtain ⟨hcalls, hserial⟩ := hrun
  rw [Occurs, or_iff_left not_occurs_nil] at hserial
  refine ⟨fun c hc => hcalls c (mem_madeCalls.2 (hc ▸ List.mem_cons_self)), fun c hc hhost => ?_⟩
  refine Nat.eq_zero_of_not_pos fun hwaiting => hserial ⟨?_, hwaiting⟩
  rw [hc]
  exact hhost

theorem hostTasks_run (hx : x.HostTasks) {events : List Event} (hrun : HostRun h x events) :
    (x.run h events).HostTasks := by
  induction events using List.reverseRecOn with
  | nil => exact hx
  | append_singleton events e ih =>
    obtain ⟨hbefore, hlast⟩ := hrun.append
    rw [run_concat]
    exact hostTasks_next (ih hbefore) hlast.event

end Interleaving

end SoloBuild
