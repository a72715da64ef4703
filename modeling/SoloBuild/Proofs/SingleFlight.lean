import SoloBuild.Proofs.CallSteps

/-!
# Single flight

A channel has at most one process that is not released. The table of processes says so by position:
only the latest process on a channel can be live. A process is started only when the latest one on
its channel is released, and between the request to end a process and its release the channel stays
taken, whoever asks.

## Key results

- `latestLive_run`: in every run only the latest process on a channel is live
- `waitsAsked_run`: whoever waits for a process to end has asked for it
- `singleFlight_run`: at most one live process on each channel, and what that means for starts
-/

namespace SoloBuild

namespace Processes

variable {ps ps' : Processes}

/-- The process at a place was asked to end. -/
def IsAsked (ps : Processes) (i : Nat) : Prop :=
  ∃ p, ps[i]? = some p ∧ p.killRequested = true

theorem IsAsked.keeps {i : Nat} (h : ps.IsAsked i) (hkeeps : ps.Keeps ps') : ps'.IsAsked i := by
  obtain ⟨p, hp, hasked⟩ := h
  obtain ⟨p', hp', hkeeps⟩ := hkeeps i p hp
  exact ⟨p', hp', hkeeps.killRequested hasked⟩

/-- Whoever waits for an end, after a change, has asked for it. -/
theorem Change.isAsked {i : Nat} (h : ps.Change ps' (some i)) : ps'.IsAsked i := by
  cases h with
  | @kill c p i killable =>
    exact ⟨_, getElem?_supervise.2 ⟨p, (latest?_eq_some_iff.1 killable.latest).1, rfl⟩, by simp⟩

end Processes

namespace Interleaving

variable {h : Host} {x : Interleaving}

/-! ## Only the latest process is live -/

theorem latestLive_next (hx : x.processes.LatestLive) (e : Event) :
    (x.next h e).processes.LatestLive := by
  obtain ⟨_, hchange⟩ | ⟨process, step, _, heq⟩ := processes_next_cases h x e
  · exact hx.change hchange
  · rw [heq]
    exact hx.supervise (BuildProcess.keeps_apply step)

theorem latestLive_run (hx : x.processes.LatestLive) (events : List Event) :
    (x.run h events).processes.LatestLive :=
  run_invariant (P := fun y => y.processes.LatestLive) (fun _ e _ hy => latestLive_next hy e) hx

/-! ## Whoever waits for an end has asked for it -/

/-- Every call that waits for the end of a process has asked for it. -/
def WaitsAsked (x : Interleaving) : Prop :=
  ∀ (place : Nat) (task : Task) (i : Nat), x.calls[place]? = some (.inr task) →
    task.asked? = some i → x.processes.IsAsked i

theorem waitsAsked_next (hx : x.WaitsAsked) (e : Event) : (x.next h e).WaitsAsked := by
  intro place task i hcall hi
  obtain hcall | ⟨c, rfl, _, htask⟩ | ⟨waiting, _, _, _, htask, hsession⟩ :=
    getElem?_calls_next_cases hcall
  -- What a call asked for before stays asked for, whatever happens.
  · exact (hx place task i hcall hi).keeps (keeps_next h x e)
  · have hchange := Session.change_begin h x.session c
    rw [htask, Progress.asked?, hi] at hchange
    exact hchange.isAsked
  · have hchange := Session.change_resume h x.session waiting
    rw [htask, Progress.asked?, hi] at hchange
    rw [processes, hsession]
    exact hchange.isAsked

theorem waitsAsked_run (hx : x.WaitsAsked) (events : List Event) :
    (x.run h events).WaitsAsked :=
  run_invariant (fun _ e _ hy => waitsAsked_next hy e) hx

/-! ## Starts -/

/-- A process is started only on a channel without a live process. -/
theorem isLive_eq_false_of_started {e : Event} {p : BuildProcess}
    (hstart : (x.next h e).processes = x.processes ++ [p]) :
    x.processes.isLive p.channel = false := by
  obtain ⟨_, hchange⟩ | ⟨process, step, _, heq⟩ := processes_next_cases h x e
  · rw [hstart] at hchange
    exact hchange.free_of_concat
  · have := congrArg List.length (heq.symm.trans hstart)
    rw [Processes.length_supervise, List.length_append] at this
    simp at this

/-- A start on a channel with a live process is refused, and changes nothing else. -/
theorem next_start_of_isLive {c : Channel} (hlive : x.processes.isLive c = true)
    (command : BuildCommand) :
    x.next h (.call (.start c command)) =
      { x with calls := x.calls ++ [.inl (.refused (.alreadyRunning c))] } := by
  obtain ⟨_, heq⟩ | ⟨_, hfree, _⟩ | ⟨_, _, hfree, _⟩ :=
    Engine.start_cases h x.session.engine c command
  · rw [next, Session.begin, heq]
  all_goals
    rw [processes, hfree] at hlive
    cases hlive

/-- Single flight: what holds of the channels at every point of a run. -/
structure SingleFlight (h : Host) (x : Interleaving) : Prop where
  /-- At most one process of a channel is not released. -/
  unique : ∀ (i j : Nat) (p q : BuildProcess), x.processes[i]? = some p → x.processes[j]? = some q →
    p.channel = q.channel → p.isLive = true → q.isLive = true → i = j
  /-- Whatever starts a process, the processes before it on its channel have been released. -/
  free : ∀ (e : Event) (p : BuildProcess), (x.next h e).processes = x.processes ++ [p] →
    ∀ q ∈ x.processes, q.channel = p.channel → q.isLive = false
  /-- A start is refused as long as a process of its channel has not been released. -/
  refused : ∀ p ∈ x.processes, p.isLive = true → ∀ command,
    x.next h (.call (.start p.channel command)) =
      { x with calls := x.calls ++ [.inl (.refused (.alreadyRunning p.channel))] }
  /-- Once they all have been released, a start is not refused for that reason. -/
  admitted : ∀ c command, (∀ p ∈ x.processes, p.channel = c → p.isLive = false) →
    (x.session.engine.start h c command).2 ≠ .error (.alreadyRunning c)
  /-- Between the request for the end of a process and its release its channel is taken: a call
  that waits for that end has asked for it, and meanwhile a start is refused. -/
  asked : ∀ (place : Nat) (task : Task) (i : Nat), x.calls[place]? = some (.inr task) →
    task.asked? = some i → ∃ p, x.processes[i]? = some p ∧ p.killRequested = true ∧
      (p.isLive = true → ∀ command, x.next h (.call (.start p.channel command)) =
        { x with calls := x.calls ++ [.inl (.refused (.alreadyRunning p.channel))] })

/-- Every interleaving of calls, ends of processes and steps of supervisors keeps single flight. -/
theorem singleFlight_run (h : Host) (files : FileTree) (events : List Event) :
    SingleFlight h ((fresh files).run h events) := by
  have hlatest : ((fresh files).run h events).processes.LatestLive :=
    latestLive_run (fun _ _ hp => by cases hp) events
  have hasked : ((fresh files).run h events).WaitsAsked :=
    waitsAsked_run (fun _ _ _ hcall => by cases hcall) events
  generalize (fresh files).run h events = x at hlatest hasked
  have hrefused : ∀ p ∈ x.processes, p.isLive = true → ∀ command,
      x.next h (.call (.start p.channel command)) =
        { x with calls := x.calls ++ [.inl (.refused (.alreadyRunning p.channel))] } :=
    fun p hp hlive => next_start_of_isLive (hlatest.isLive_iff.2 ⟨p, hp, rfl, hlive⟩)
  refine ⟨fun i j p q hp hq hc hplive hqlive => ?_, fun e p hstart q hq hc => ?_, hrefused,
    fun c command hfree hrefused => ?_, fun place task i hcall hi => ?_⟩
  -- Both are the latest process of their channel.
  · have hlast := hlatest i p hp hplive
    rw [hc, hlatest j q hq hqlive] at hlast
    cases hlast
    rfl
  · have hfree := isLive_eq_false_of_started hstart
    cases hlive : q.isLive with
    | false => rfl
    | true =>
      rw [hlatest.isLive_iff.2 ⟨q, hq, hc, hlive⟩] at hfree
      cases hfree
  · have hlive := (Engine.start_eq_alreadyRunning_iff h x.session.engine c command).1 hrefused
    obtain ⟨p, hp, hc, hlive⟩ := hlatest.isLive_iff.1 hlive
    rw [hfree p hp hc] at hlive
    cases hlive
  · obtain ⟨p, hp, hkill⟩ := hasked place task i hcall hi
    exact ⟨p, hp, hkill, hrefused p (List.mem_of_getElem? hp)⟩

end Interleaving

end SoloBuild
