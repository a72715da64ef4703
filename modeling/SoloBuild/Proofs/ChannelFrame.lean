import SoloBuild.Proofs.KillRequests

/-!
# What changes a channel

A channel is seen through its latest process: whether it runs, its state and its command. This is
changed only by a start that succeeds on the channel, and by the supervisor of a process there: not
by a start that is refused, not by asking for the end of a process, and not by anything on another
channel. A process itself is seen through the handle that its starter was given. It runs until its
end is published, and the end that was published is told to everybody who waits for it.

## Key results

- `Processes.sameView_supervise`, `Change.sameView`: what a change to the table leaves of a channel
- `sameView_next_cases`: a channel that has changed has a new process, or its supervisor took a step
- `wait?_run`: the end of a process that a wait has told stays the same
- `channelFrame`: all of this, from every state
-/

namespace SoloBuild

namespace Processes

variable {ps ps' : Processes} {c : Channel} {i : Nat}

/-! ## One channel -/

/-- A channel is seen as before: whether it runs, and the state and the command of its latest
process. -/
structure SameView (ps ps' : Processes) (c : Channel) : Prop where
  isLive : ps'.isLive c = ps.isLive c
  state : ps'.state c = ps.state c
  command : ps'.command? c = ps.command? c

theorem SameView.refl (ps : Processes) (c : Channel) : SameView ps ps c := ⟨rfl, rfl, rfl⟩

theorem sameView_of_latest? (h : ps'.latest? c = ps.latest? c) : SameView ps ps' c where
  isLive := by rw [Processes.isLive, Processes.isLive, h]
  state := by rw [Processes.state, Processes.state, h]
  command := by rw [command?, command?, h]

/-- The latest process on a channel after a step of a supervisor is the one before, with that step
if it is its supervisor's. -/
theorem latest?_supervise {step : BuildProcess → BuildProcess}
    (hstep : ∀ p : BuildProcess, (step p).channel = p.channel) (ps : Processes) (i : Nat)
    (c : Channel) :
    (ps.supervise i step).latest? c =
      (ps.latest? c).map fun found =>
        (if i = found.2 then step found.1 else found.1, found.2) := by
  have hchannel (p : BuildProcess) (j : Nat) :
      (if i = j then step p else p).channel = p.channel := by
    split
    · exact hstep p
    · rfl
  refine Option.ext fun ⟨p', j⟩ => ?_
  rw [latest?_eq_some_iff, Option.map_eq_some_iff]
  constructor
  · rintro ⟨hp', rfl, hlast⟩
    obtain ⟨p, hp, rfl⟩ := getElem?_supervise.1 hp'
    refine ⟨(p, j), latest?_eq_some_iff.2 ⟨hp, (hchannel p j).symm, fun k q hq hc => ?_⟩, rfl⟩
    exact hlast k _ (getElem?_supervise.2 ⟨q, hq, rfl⟩) ((hchannel q k).trans hc)
  · rintro ⟨⟨p, k⟩, hlatest, heq⟩
    obtain ⟨hp, hc, hlast⟩ := latest?_eq_some_iff.1 hlatest
    obtain ⟨rfl, rfl⟩ := Prod.mk.inj heq
    refine ⟨getElem?_supervise.2 ⟨p, hp, rfl⟩, (hchannel p k).trans hc, fun l q' hq' hq => ?_⟩
    obtain ⟨q, hold, rfl⟩ := getElem?_supervise.1 hq'
    exact hlast l q hold ((hchannel q l).symm.trans hq)

/-- A step that leaves what is seen of a process leaves what is seen of every channel. -/
theorem sameView_supervise {step : BuildProcess → BuildProcess}
    (hchannel : ∀ p : BuildProcess, (step p).channel = p.channel)
    (hview : ∀ p j, ps.latest? c = some (p, j) → i = j →
      (step p).state = p.state ∧ (step p).command = p.command) :
    SameView ps (ps.supervise i step) c := by
  have hlatest := latest?_supervise hchannel ps i c
  cases hbefore : ps.latest? c with
  | none =>
    refine sameView_of_latest? ?_
    rw [hlatest, hbefore, Option.map_none]
  | some found =>
    obtain ⟨p, j⟩ := found
    rw [hbefore, Option.map_some] at hlatest
    dsimp only at hlatest
    by_cases hi : i = j
    · obtain ⟨hstate, hcommand⟩ := hview p j hbefore hi
      rw [if_pos hi] at hlatest
      refine ⟨?_, ?_, ?_⟩
      · rw [Processes.isLive, Processes.isLive, hlatest, hbefore]
        exact congrArg ProcessState.isRunning hstate
      · rw [Processes.state, Processes.state, hlatest, hbefore]
        exact hstate
      · rw [command?, command?, hlatest, hbefore]
        exact congrArg some hcommand
    · rw [if_neg hi] at hlatest
      exact sameView_of_latest? (hlatest.trans hbefore.symm)

theorem sameView_askToEnd (ps : Processes) (i : Nat) (c : Channel) :
    SameView ps (ps.supervise i fun p => { p with killRequested := true }) c :=
  sameView_supervise (fun _ => rfl) fun _ _ _ _ => ⟨rfl, rfl⟩

/-- The supervisor of a process changes nothing on another channel. -/
theorem sameView_apply {p : BuildProcess} (hp : ps[i]? = some p) (hc : p.channel ≠ c)
    (step : SupervisorStep) : SameView ps (ps.supervise i step.apply) c := by
  refine sameView_supervise (fun p => (BuildProcess.keeps_apply step p).channel) ?_
  rintro q j hlatest rfl
  obtain ⟨hq, hchannel, _⟩ := latest?_eq_some_iff.1 hlatest
  cases hp.symm.trans hq
  exact absurd hchannel hc

theorem Change.state_of_concat {p : BuildProcess} {asked : Option Nat}
    (h : ps.Change (ps ++ [p]) asked) : p.state = .running := by
  generalize hps' : ps ++ [p] = ps' at h
  cases h with
  | same => simp at hps'
  | kill => simpa using congrArg List.length hps'
  | start command run =>
    cases (List.append_inj' hps' rfl).2
    rfl

/-- A call changes what is seen of a channel only by starting a process there. -/
theorem Change.sameView {asked : Option Nat} (h : ps.Change ps' asked) (c : Channel) :
    SameView ps ps' c ∨ ∃ p, ps' = ps ++ [p] ∧ p.channel = c := by
  cases h with
  | same => exact .inl (.refl ps c)
  | kill => exact .inl (sameView_askToEnd ps _ c)
  | @start d command run =>
    by_cases hd : d = c
    · exact .inr ⟨_, rfl, hd⟩
    · exact .inl (sameView_of_latest? ((latest?_concat ps _ c).trans (if_neg hd)))

/-! ## One process -/

/-- What a wait for a process returns, once it returns. -/
def wait? (ps : Processes) (i : Nat) : Option ProcessState :=
  if ps.isReleased i then some (ps.stateAt i) else none

theorem wait?_eq_some_iff {state : ProcessState} :
    ps.wait? i = some state ↔ ps.isReleased i = true ∧ ps.stateAt i = state := by
  rw [wait?]
  split
  · next hreleased => rw [Option.some.injEq, hreleased, eq_self, true_and]
  · next hreleased => exact ⟨nofun, fun ⟨h, _⟩ => absurd h hreleased⟩

/-- The end of a process that a wait has told stays the same. -/
theorem Keeps.wait?_eq (h : ps.Keeps ps') {state : ProcessState} (hwait : ps.wait? i = some state) :
    ps'.wait? i = some state := by
  obtain ⟨hreleased, hstate⟩ := wait?_eq_some_iff.1 hwait
  exact wait?_eq_some_iff.2 ⟨h.isReleased hreleased, (h.stateAt_eq hreleased).trans hstate⟩

/-- A process that no wait has told of is running. -/
theorem stateAt_of_wait?_eq_none {p : BuildProcess} (hp : ps[i]? = some p)
    (hwait : ps.wait? i = none) : ps.stateAt i = .running := by
  rw [wait?, isReleased, stateAt, hp] at hwait
  rw [stateAt, hp]
  obtain ⟨_, _, _, supervision, _⟩ := p
  cases supervision <;> first | rfl | cases hwait

end Processes

namespace Interleaving

open Processes

variable {h : Host} {x : Interleaving} {e : Event} {c : Channel}

/-- A channel that is not seen as before has a new process, or the supervisor of a process there has
taken a step. -/
theorem sameView_next_cases (h : Host) (x : Interleaving) (e : Event) (c : Channel) :
    SameView x.processes (x.next h e).processes c ∨
      (∃ p, (x.next h e).processes = x.processes ++ [p] ∧ p.channel = c) ∨
      ∃ i p step, e = .supervise i step ∧ x.processes[i]? = some p ∧ p.channel = c := by
  obtain ⟨_, hchange⟩ | ⟨i, step, rfl, heq⟩ := processes_next_cases h x e
  · exact (hchange.sameView c).imp_right .inl
  · rw [heq]
    cases hp : x.processes[i]? with
    -- Nobody supervises a process that was not started.
    | none =>
      rw [supervise, List.modify_eq_self (List.getElem?_eq_none_iff.1 hp)]
      exact .inl (.refl _ c)
    | some p =>
      by_cases hc : p.channel = c
      · exact .inr (.inr ⟨i, p, step, rfl, hp, hc⟩)
      · exact .inl (sameView_apply hp hc step)

/-- The end of a process that a wait has told is told to everybody who waits for it, whatever
happens. -/
theorem wait?_run {i : Nat} {state : ProcessState} (hwait : x.processes.wait? i = some state)
    (events : List Event) : (x.run h events).processes.wait? i = some state :=
  (keeps_run h x events).wait?_eq hwait

/-- A start that is refused changes no process. -/
theorem processes_start_of_refused {command : BuildCommand} {reason : ProcessError}
    (hrefused : (x.next h (.call (.start c command))).calls[x.calls.length]? =
      some (.inl (.refused reason))) :
    (x.next h (.call (.start c command))).processes = x.processes := by
  have hnew : (x.next h (.call (.start c command))).calls[x.calls.length]? =
      some (x.session.begin h (.start c command)).2 := List.getElem?_concat_length
  rw [hrefused, Session.begin] at hnew
  rw [processes, next, Session.begin]
  obtain ⟨_, heq⟩ | ⟨_, _, _, heq⟩ | ⟨_, _, _, _, heq⟩ :=
    Engine.start_cases h x.session.engine c command
  · rw [heq]
    rfl
  · rw [heq]
    rfl
  · rw [heq] at hnew
    cases hnew

/-- A start adds at most a process on its own channel. -/
theorem channel_of_start {command : BuildCommand} {p : BuildProcess}
    (hstart : (x.next h (.call (.start c command))).processes = x.processes ++ [p]) :
    p.channel = c := by
  rw [processes, next, Session.begin] at hstart
  have hunchanged : x.session.engine.processes ≠ x.processes ++ [p] :=
    fun heq => by simpa [processes] using congrArg List.length heq
  obtain ⟨_, heq⟩ | ⟨_, _, _, heq⟩ | ⟨_, _, _, _, heq⟩ :=
    Engine.start_cases h x.session.engine c command
  · rw [heq] at hstart
    exact absurd hstart hunchanged
  · rw [heq] at hstart
    exact absurd hstart hunchanged
  · rw [heq] at hstart
    cases (List.append_inj' hstart rfl).2
    rfl

/-- A process that is started runs. -/
theorem stateAt_of_started {p : BuildProcess}
    (hstart : (x.next h e).processes = x.processes ++ [p]) :
    (x.next h e).processes.stateAt x.processes.length = .running := by
  rw [hstart, stateAt, List.getElem?_concat_length]
  obtain ⟨_, hchange⟩ | ⟨_, _, _, heq⟩ := processes_next_cases h x e
  · rw [hstart] at hchange
    exact hchange.state_of_concat
  · have := congrArg List.length (heq.symm.trans hstart)
    simp at this

/-- What changes a channel, and what stays. -/
structure ChannelFrame (h : Host) (x : Interleaving) : Prop where
  /-- Whatever happens, a channel changes only when a process is started on it, or when the
  supervisor of one of its processes takes a step. -/
  changed : ∀ e c, SameView x.processes (x.next h e).processes c ∨
    (∃ p, (x.next h e).processes = x.processes ++ [p] ∧ p.channel = c) ∨
    ∃ i p step, e = .supervise i step ∧ x.processes[i]? = some p ∧ p.channel = c
  /-- A start that is refused leaves every channel as it was, whatever the reason. -/
  refused : ∀ c command reason,
    (x.next h (.call (.start c command))).calls[x.calls.length]? =
        some (.inl (.refused reason)) →
      ∀ d, SameView x.processes (x.next h (.call (.start c command))).processes d
  /-- A start changes no other channel. -/
  started : ∀ c command d, d ≠ c →
    SameView x.processes (x.next h (.call (.start c command))).processes d
  /-- A kill asks for the end of a process, which changes no channel. -/
  killed : ∀ c d, SameView x.processes (x.next h (.call (.kill c))).processes d
  /-- Nor does it change one when it goes on after the process has been released. -/
  resumed : ∀ place i, x.calls[place]? = some (.inr (.kill i)) →
    ∀ d, SameView x.processes (x.next h (.resume place)).processes d
  /-- The supervisor of a process, which observes its exit or kills it, changes no other channel. -/
  supervised : ∀ i p step d, x.processes[i]? = some p → d ≠ p.channel →
    SameView x.processes (x.next h (.supervise i step)).processes d
  /-- A process that is started runs. -/
  running : ∀ e p, (x.next h e).processes = x.processes ++ [p] →
    (x.next h e).processes.stateAt x.processes.length = .running
  /-- A process runs on or has come to its end, and its end is not changed by anything after it: all
  who wait for the process are told the same. -/
  handle : ∀ i p, x.processes[i]? = some p →
    (x.processes.wait? i = none ∧ x.processes.stateAt i = .running) ∨
      ∃ state, state.isTerminal = true ∧ ∀ events,
        (x.run h events).processes.wait? i = some state ∧
          (x.run h events).processes.stateAt i = state
  /-- Such a wait is what a build of one unit reports. -/
  waited : ∀ place completion state, x.calls[place]? = some (.inr (.unitRun completion)) →
    x.processes.wait? completion.process = some state →
      ∃ followUpFired, (x.next h (.resume place)).calls[place]? =
        some (.inl (.outcome (.completed state followUpFired)))

/-- A failed start, and what happens on another channel, change nothing on a channel; and a process
comes to one end. This holds from every state of a session. -/
theorem channelFrame (h : Host) (x : Interleaving) : ChannelFrame h x where
  changed := sameView_next_cases h x
  refused c command reason hrefused d := by
    rw [processes_start_of_refused hrefused]
    exact .refl _ d
  started c command d hd := by
    obtain hview | ⟨p, hstart, hp⟩ | ⟨_, _, _, he, _⟩ :=
      sameView_next_cases h x (.call (.start c command)) d
    · exact hview
    · exact absurd (hp.symm.trans (channel_of_start hstart)) hd
    · cases he
  killed c d := by
    rw [processes, next]
    obtain ⟨heq, _⟩ | ⟨_, _, _, heq⟩ := Session.begin_kill_cases h x.session c
    · rw [heq]
      exact .refl _ d
    · rw [heq]
      exact sameView_askToEnd _ _ d
  resumed place i hcall d := by
    obtain heq | ⟨task, htask, _, heq⟩ := next_resume_cases h x place
    · rw [heq]
      exact .refl _ d
    · cases hcall.symm.trans htask
      rw [heq]
      exact .refl _ d
  supervised i p step d hp hd := sameView_apply hp (Ne.symm hd) step
  running _ _ := stateAt_of_started
  handle i p hp := by
    cases hwait : x.processes.wait? i with
    | none => exact .inl ⟨rfl, stateAt_of_wait?_eq_none hp hwait⟩
    | some state =>
      obtain ⟨hreleased, hstate⟩ := wait?_eq_some_iff.1 hwait
      refine .inr ⟨state, hstate ▸ hreleased, fun events => ?_⟩
      have hlater := wait?_run (h := h) hwait events
      exact ⟨hlater, (wait?_eq_some_iff.1 hlater).2⟩
  waited place completion state hcall hwait := by
    obtain ⟨hreleased, rfl⟩ := wait?_eq_some_iff.1 hwait
    exact ⟨_, getElem?_calls_resume hcall hreleased⟩

end Interleaving

end SoloBuild
