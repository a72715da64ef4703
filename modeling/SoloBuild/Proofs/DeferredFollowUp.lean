import SoloBuild.Proofs.HostCalls

/-!
# Follow-ups that wait for the host's build

The host keeps a follow-up for its next build: it becomes pending when that build begins. Requests
for debugging share the lifecycle with the builds of the host, and the lifecycle does not know whose
build begins or ends. So the first event after it in which any build begins or ends decides about
the follow-up: it is dropped, or it runs there when a build ends and nothing failed. It is the
host's own build that decides when no request for debugging comes first.

## Key results

- `HostStep.pending`: what an event does to a follow-up that is pending
- `FollowUpStage`: what has become of it some events later
- `followUp_decided`: the event that decides about a follow-up, and when it runs there
- `kept_followUp_runs`: without requests for debugging, the build that it was kept for decides
- `ran_while_hostBuildRunning`, `not_ran_of_debug_ends`: runs in which another build decides
-/

namespace SoloBuild

namespace Interleaving

/-- An event runs a follow-up with the label. -/
def Runs (h : Host) (label : String) (x : Interleaving) (e : Event) : Prop :=
  x.ran.count label < (x.next h e).ran.count label

instance (h : Host) (label : String) (x : Interleaving) (e : Event) :
    Decidable (Runs h label x e) :=
  inferInstanceAs (Decidable (_ < _))

/-- Neither the pending follow-up nor the one that is kept for the host has the label. -/
structure Lacks (label : String) (x : Interleaving) : Prop where
  pending : x.session.engine.Lacks label
  deferred : ∀ f, x.deferred = some f → label ∉ f.labels

/-- The follow-up is kept for the host's next build, and not pending. -/
structure Kept (g : FollowUp) (x : Interleaving) : Prop where
  pending : x.session.engine.Lacks g.label
  deferred : x.deferred = some g

/-- A build begins or ends in this event, be it the host's or one that is to be debugged. -/
def Decides (h : Host) (x : Interleaving) (e : Event) : Prop :=
  debugSignals h x e = true ∨ HostBegins h x e ∨ e = .call .buildDone

instance (h : Host) (x : Interleaving) (e : Event) : Decidable (Decides h x e) :=
  inferInstanceAs (Decidable (_ ∨ _))

/-- In this event the host's build ends, or a request for debugging reports a success. -/
def EndsWell (x : Interleaving) (e : Event) : Prop :=
  e = .call .buildDone ∨
    ∃ place completion, e = .resume place ∧ x.calls[place]? = some (.inr (.unitRun completion)) ∧
      x.processes.stateAt completion.process = .exited (some 0)

variable {h : Host} {x y : Interleaving} {e : Event} {label : String} {g : FollowUp}

theorem lacks_of_lifecycle (hx : x.session.engine.Lacks label)
    (hpending : y.lifecycle.pending = x.lifecycle.pending) : y.session.engine.Lacks label :=
  fun f hf => hx f (hpending.symm.trans hf)

theorem not_runs_of_count (hcount : (x.next h e).ran.count label = x.ran.count label) :
    ¬ Runs h label x e := by
  rw [Runs, hcount]
  exact Nat.lt_irrefl _

theorem not_runs_of_ran (hran : (x.next h e).ran = x.ran) : ¬ Runs h label x e :=
  not_runs_of_count (congrArg (List.count label) hran)

theorem runs_of_ran (hran : (x.next h e).ran = x.ran ++ [label]) : Runs h label x e := by
  rw [Runs, hran, List.count_append, List.count_singleton_self]
  exact Nat.lt_succ_self _

/-- A build of the host that begins in this event would wait no longer. -/
theorem not_hostBegins (hwaiting : (x.next h e).hostWaiting =
    x.hostWaiting + if e = .call .buildBegin then 1 else 0) : ¬ HostBegins h x e := by
  rintro ⟨hbegin | hpos, hidle⟩
  · rw [if_pos hbegin] at hwaiting
    omega
  · omega

theorem not_hostBegins_of_ne (he : e ≠ .call .buildBegin)
    (hwaiting : (x.next h e).hostWaiting = x.hostWaiting) : ¬ HostBegins h x e :=
  not_hostBegins (by rw [hwaiting, if_neg he, Nat.add_zero])

/-- A build ends in an event in which one ends well. -/
theorem EndsWell.signals (hends : EndsWell x e) :
    debugSignals h x e = true ∨ e = .call .buildDone := by
  obtain hdone | ⟨place, completion, rfl, htask, hexited⟩ := hends
  · exact .inr hdone
  · refine .inl ?_
    rw [debugSignals, htask]
    dsimp only
    rw [Processes.isReleased, hexited]
    rfl

/-- No build begins or ends in an event that tells the lifecycle of none. -/
theorem not_decides (hsignals : debugSignals h x e = false) (hbegins : ¬ HostBegins h x e)
    (hdone : e ≠ .call .buildDone) : ¬ Decides h x e ∧ ¬ EndsWell x e := by
  have hdecides : ¬ Decides h x e := by
    rintro (hdebug | hbegin | hend)
    · cases hsignals.symm.trans hdebug
    · exact hbegins hbegin
    · exact hdone hend
  exact ⟨hdecides, fun hends => hdecides (hends.signals.imp_right .inr)⟩

theorem admits_of_madeCalls (hlabels : ∀ c ∈ madeCalls [e], label ∉ c.labels) : Admits label e :=
  fun c hc => hlabels c (mem_madeCalls.2 (hc ▸ List.mem_cons_self))

/-! ## One event -/

/-- A follow-up that nobody has asked for does not run. -/
theorem HostStep.lacks (hstep : HostStep h x e y) (hx : x.Lacks label) (he : Admits label e) :
    y.Lacks label ∧ y.ran.count label = x.ran.count label := by
  cases hstep with
  | still _ _ _ hlifecycle hran hdeferred =>
    exact ⟨⟨lacks_of_lifecycle hx.pending (congrArg _ hlifecycle), hdeferred ▸ hx.deferred⟩,
      hran ▸ rfl⟩
  | debug _ _ hdeferred hwithout =>
    have hdebug := hwithout label hx.pending he
    exact ⟨⟨hdebug.lacks, hdeferred ▸ hx.deferred⟩, hdebug.count⟩
  | defer f hf _ hlifecycle hran hdeferred =>
    refine ⟨⟨lacks_of_lifecycle hx.pending (congrArg _ hlifecycle), ?_⟩, hran ▸ rfl⟩
    rw [hdeferred]
    rintro _ ⟨⟩
    exact he _ hf
  | begun _ _ _ hlifecycle hran hdeferred =>
    refine ⟨⟨fun f hf => hx.deferred f ?_, hdeferred ▸ nofun⟩, hran ▸ rfl⟩
    exact (congrArg Lifecycle.pending hlifecycle).symm.trans hf
  | unitDone _ _ _ _ hlifecycle hran hdeferred =>
    have hpending : y.lifecycle.pending = x.lifecycle.pending := by rw [hlifecycle]; rfl
    exact ⟨⟨lacks_of_lifecycle hx.pending hpending, hdeferred ▸ hx.deferred⟩, hran ▸ rfl⟩
  | buildDone _ _ hengine hdeferred =>
    have hdone := Engine.without_done hx.pending
    rw [← hengine] at hdone
    exact ⟨⟨hdone.lacks, hdeferred ▸ hx.deferred⟩, hdone.count⟩

/-- A follow-up stays kept until a build of the host begins, and then it is the pending one. -/
theorem HostStep.kept (hstep : HostStep h x e (x.next h e)) (hx : x.Kept g)
    (he : Admits g.label e) (hdefer : ∀ f, e ≠ .call (.deferFollowUp f)) :
    ¬ Runs h g.label x e ∧
      (¬ HostBegins h x e ∧ (x.next h e).Kept g ∨
        HostBegins h x e ∧ (x.next h e).deferred = none ∧
          (x.next h e).lifecycle = { phase := .running, pending := some g, success := true }) := by
  cases hstep with
  | still _ _ hwaiting hlifecycle hran hdeferred =>
    exact ⟨not_runs_of_ran hran, .inl ⟨not_hostBegins hwaiting,
      lacks_of_lifecycle hx.pending (congrArg _ hlifecycle), hdeferred.trans hx.deferred⟩⟩
  | debug hsignals hwaiting hdeferred hwithout =>
    have hdebug := hwithout g.label hx.pending he
    refine ⟨not_runs_of_count hdebug.count, .inl ⟨not_hostBegins_of_ne (fun hbegin => ?_) hwaiting,
      hdebug.lacks, hdeferred.trans hx.deferred⟩⟩
    rw [hbegin] at hsignals
    cases hsignals
  | defer f hf => exact absurd hf (hdefer f)
  | begun _ hbegin hwaiting hlifecycle hran hdeferred =>
    rw [hx.deferred] at hlifecycle
    exact ⟨not_runs_of_ran hran, .inr ⟨⟨hbegin, hwaiting⟩, hdeferred, hlifecycle⟩⟩
  | unitDone _ _ hunit hwaiting hlifecycle hran hdeferred =>
    have hpending : (x.next h e).lifecycle.pending = x.lifecycle.pending := by
      rw [hlifecycle]
      rfl
    refine ⟨not_runs_of_ran hran, .inl ⟨not_hostBegins_of_ne ?_ hwaiting,
      lacks_of_lifecycle hx.pending hpending, hdeferred.trans hx.deferred⟩⟩
    rw [hunit]
    nofun
  | buildDone hbuild hwaiting hengine hdeferred =>
    have hdone := Engine.without_done hx.pending
    rw [← hengine] at hdone
    refine ⟨not_runs_of_count hdone.count, .inl ⟨not_hostBegins_of_ne ?_ hwaiting, hdone.lacks,
      hdeferred.trans hx.deferred⟩⟩
    rw [hbuild]
    nofun

/-- A request for debugging that reports the end of its build runs the pending follow-up exactly
when its process was a success and no failure was recorded, and leaves it pending in no case. -/
theorem reported_end {place : Nat} {completion : Completion}
    (htask : x.calls[place]? = some (.inr (.unitRun completion)))
    (hreleased : x.processes.isReleased completion.process = true)
    (hpending : x.lifecycle.pending = some g) (hlater : g.label ∉ g.later) :
    (x.next h (.resume place)).session.engine.Lacks g.label ∧
      (Runs h g.label x (.resume place) ↔
        x.processes.stateAt completion.process = .exited (some 0) ∧
          x.lifecycle.success = true) := by
  have hengine : (x.next h (.resume place)).session.engine =
      (x.session.engine.complete completion).1 := by
    rw [next_resume_of_isReleased htask hreleased]
    rfl
  refine ⟨hengine ▸ Engine.lacks_complete (fun f hf => ?_) completion, ?_⟩
  · cases hpending.symm.trans hf
    exact hlater
  rw [← ProcessState.isSuccess_iff]
  obtain ⟨f, hf, hsuccess, hexited, heq⟩ | ⟨hnot, success, heq⟩ :=
    x.session.engine.complete_cases completion
  · cases hpending.symm.trans hf
    have hran : (x.next h (.resume place)).ran = x.ran ++ [g.label] := by
      rw [ran, hengine, heq]
      exact Engine.ran_fire _ g
    exact iff_of_true (runs_of_ran hran) ⟨hexited, hsuccess⟩
  · have hran : (x.next h (.resume place)).ran = x.ran := by
      rw [ran, hengine, heq]
      rfl
    refine iff_of_false (not_runs_of_ran hran) fun ⟨hexited, hsuccess⟩ => ?_
    obtain hnone | hfailed | hfailed := hnot
    · cases hpending.symm.trans hnone
    · cases hsuccess.symm.trans hfailed
    · cases hexited.symm.trans hfailed

/-- When the host's build ends, the pending follow-up runs unless a failure was recorded. -/
theorem runs_buildDone_iff (hpending : x.lifecycle.pending = some g) :
    Runs h g.label x (.call .buildDone) ↔ x.lifecycle.success = true := by
  obtain ⟨f, hf, hsuccess, heq⟩ | ⟨hfailed | hnone, heq⟩ := x.session.engine.signal_done_cases
  · cases hpending.symm.trans hf
    have hran : (x.next h (.call .buildDone)).ran = x.ran ++ [g.label] :=
      (congrArg (fun signalled => signalled.1.ran) heq).trans (Engine.ran_fire _ g)
    exact iff_of_true (runs_of_ran hran) hsuccess
  · have hran : (x.next h (.call .buildDone)).ran = x.ran :=
      congrArg (fun signalled => signalled.1.ran) heq
    refine iff_of_false (not_runs_of_ran hran) fun hsuccess => ?_
    cases hsuccess.symm.trans hfailed
  · cases hpending.symm.trans hnone

/-- What an event does to a follow-up that is pending. -/
inductive PendingStep (h : Host) (g : FollowUp) (x : Interleaving) (e : Event) : Prop where
  /-- It decides: the follow-up runs now or never. -/
  | decided (hdecides : Decides h x e) (hlacks : (x.next h e).Lacks g.label)
      (hruns : Runs h g.label x e ↔ EndsWell x e ∧ x.lifecycle.success = true)
  /-- It leaves it pending, and at most records a failure. -/
  | left (hdecides : ¬ Decides h x e) (hends : ¬ EndsWell x e) (hruns : ¬ Runs h g.label x e)
      (hpending : (x.next h e).lifecycle.pending = some g)
      (hdeferred : ∀ f, (x.next h e).deferred = some f → g.label ∉ f.labels)
      (hsuccess : (x.next h e).lifecycle.success = true ↔
        x.lifecycle.success = true ∧ ∀ unit, e ≠ .call (.unitDone unit false))

theorem HostStep.pending (hstep : HostStep h x e (x.next h e)) (he : x.HostEvent e)
    (hadmits : Admits g.label e) (hlater : g.label ∉ g.later)
    (hpending : x.lifecycle.pending = some g)
    (hdeferred : ∀ f, x.deferred = some f → g.label ∉ f.labels) : PendingStep h g x e := by
  cases hstep with
  | still hsignals hcall hwaiting hlifecycle hran hsame =>
    have hnotDone : e ≠ .call .buildDone := fun hc => by cases hcall _ hc rfl
    have hnotUnit : ∀ unit, e ≠ .call (.unitDone unit false) := fun unit hc => by
      cases hcall _ hc rfl
    obtain ⟨hdecides, hends⟩ := not_decides hsignals (not_hostBegins hwaiting) hnotDone
    refine .left hdecides hends (not_runs_of_ran hran) (hlifecycle ▸ hpending)
      (hsame ▸ hdeferred) ?_
    rw [hlifecycle, and_iff_left hnotUnit]
  | debug hsignals _ hsame =>
    have hkept : ∀ f, (x.next h e).deferred = some f → g.label ∉ f.labels := hsame ▸ hdeferred
    obtain ⟨project, configuration, f, rfl, hbegins⟩ | ⟨place, completion, rfl, htask, hreleased⟩ :=
      debugSignals_cases hsignals
    -- A build that begins drops what is pending.
    · obtain ⟨hlacks, hran⟩ := Engine.lacks_debugStartup_of_begins hbegins (hadmits _ rfl)
      refine .decided (.inl hsignals) ⟨hlacks, hkept⟩ (iff_of_false (not_runs_of_ran hran) ?_)
      rintro ⟨hends | ⟨_, _, hends, _⟩, _⟩ <;> cases hends
    · obtain ⟨hlacks, hruns⟩ := reported_end htask hreleased hpending hlater
      refine .decided (.inl hsignals) ⟨hlacks, hkept⟩ (hruns.trans (and_congr_left fun _ => ?_))
      constructor
      · exact fun hexited => .inr ⟨place, completion, rfl, htask, hexited⟩
      · rintro (hc | ⟨_, _, ⟨⟩, htask', hexited⟩)
        · cases hc
        · cases htask.symm.trans htask'
          exact hexited
  | defer f hc hwaiting hlifecycle hran hkept =>
    subst hc
    obtain ⟨hdecides, hends⟩ := not_decides (h := h) (x := x) (e := .call (.deferFollowUp f)) rfl
      (not_hostBegins_of_ne (fun hc => by cases hc) hwaiting) (fun hc => by cases hc)
    refine .left hdecides hends (not_runs_of_ran hran) (hlifecycle ▸ hpending) ?_ ?_
    · intro f' hf'
      cases hkept.symm.trans hf'
      exact hadmits _ rfl
    · rw [hlifecycle, and_iff_left fun unit => nofun]
  -- The build that begins drops the follow-up of the earlier one.
  | begun hsignals hbegin hwaiting hlifecycle hran hnone =>
    have hlacks : (x.next h e).session.engine.Lacks g.label := fun f hf =>
      hdeferred f ((congrArg Lifecycle.pending hlifecycle).symm.trans hf)
    refine .decided (.inr (.inl ⟨hbegin, hwaiting⟩)) ⟨hlacks, hnone ▸ nofun⟩
      (iff_of_false (not_runs_of_ran hran) fun ⟨hends, _⟩ => ?_)
    obtain hdebug | rfl := hends.signals
    · cases hsignals.symm.trans hdebug
    · rw [he.serial _ rfl rfl] at hbegin
      obtain hbegin | hpos := hbegin
      · cases hbegin
      · exact Nat.lt_irrefl 0 hpos
  | unitDone unit success hc hwaiting hlifecycle hran hsame =>
    subst hc
    obtain ⟨hdecides, hends⟩ := not_decides (h := h) (x := x) (e := .call (.unitDone unit success))
      rfl (not_hostBegins_of_ne (fun hc => by cases hc) hwaiting) (fun hc => by cases hc)
    refine .left hdecides hends (not_runs_of_ran hran) ?_ (hsame ▸ hdeferred) ?_
    · rw [hlifecycle]
      exact hpending
    -- A failure counts, since the follow-up is pending.
    · rw [hlifecycle]
      cases success <;> simp [Lifecycle.handle, hpending]
  | buildDone hc hwaiting hengine hsame =>
    subst hc
    have hlacks : (x.next h (.call .buildDone)).session.engine.Lacks g.label := by
      rw [hengine]
      refine Engine.lacks_done fun f hf => ?_
      cases hpending.symm.trans hf
      exact hlater
    exact .decided (.inr (.inr rfl)) ⟨hlacks, hsame ▸ hdeferred⟩
      ((runs_buildDone_iff hpending).trans (and_iff_right (.inl rfl)).symm)

/-! ## Runs -/

/-- What has become of a follow-up that was pending at one moment, some events later. -/
inductive FollowUpStage (h : Host) (g : FollowUp) (x : Interleaving) (mid : List Event)
    (y : Interleaving) : Prop where
  /-- No build has begun or ended. -/
  | pending (hpending : y.lifecycle.pending = some g)
      (hdeferred : ∀ f, y.deferred = some f → g.label ∉ f.labels)
      (hmid : ¬ Occurs h (Decides h) x mid)
      (hsuccess : y.lifecycle.success = true ↔ ∀ unit, .unitDone unit false ∉ madeCalls mid)
  | decided (hlacks : y.Lacks g.label) (hmid : Occurs h (Decides h) x mid)

theorem mem_madeCalls_concat {mid : List Event} {c : Call} :
    c ∈ madeCalls (mid ++ [e]) ↔ c ∈ madeCalls mid ∨ e = .call c := by
  rw [mem_madeCalls, mem_madeCalls, List.mem_append, List.mem_singleton, eq_comm]

/-- What becomes of the follow-up in an event, and when it runs there. -/
theorem FollowUpStage.next {mid : List Event} (hs : FollowUpStage h g x mid (x.run h mid))
    (hx : (x.run h mid).HostTasks) (he : (x.run h mid).HostEvent e) (hadmits : Admits g.label e)
    (hlater : g.label ∉ g.later) :
    FollowUpStage h g x (mid ++ [e]) (x.run h (mid ++ [e])) ∧
      (Runs h g.label (x.run h mid) e ↔
        EndsWell (x.run h mid) e ∧ ¬ Occurs h (Decides h) x mid ∧
          ∀ unit, .unitDone unit false ∉ madeCalls mid) := by
  have hstep := hostStep_next (h := h) hx he
  rw [run_concat]
  cases hs with
  | pending hpending hdeferred hmid hsuccess =>
    cases hstep.pending he hadmits hlater hpending hdeferred with
    | decided hdecides hlacks hruns =>
      refine ⟨.decided hlacks ((occurs_concat mid e).2 (.inr hdecides)), ?_⟩
      rw [hruns, hsuccess, and_iff_right hmid]
    | left hdecides hends hruns hpending' hdeferred' hsuccess' =>
      refine ⟨.pending hpending' hdeferred' ?_ ?_, iff_of_false hruns fun h => hends h.1⟩
      · rw [occurs_concat]
        exact not_or.2 ⟨hmid, hdecides⟩
      · rw [hsuccess', hsuccess, ← forall_and]
        exact forall_congr' fun unit => by rw [mem_madeCalls_concat, not_or]
  | decided hlacks hmid =>
    obtain ⟨hlacks', hcount⟩ := hstep.lacks hlacks hadmits
    exact ⟨.decided hlacks' ((occurs_concat mid e).2 (.inl hmid)),
      iff_of_false (not_runs_of_count hcount) fun h => h.2.1 hmid⟩

theorem followUpStage_run {mid : List Event} (hx : x.HostTasks) (hs : FollowUpStage h g x [] x)
    (hrun : HostRun h x mid) (hadmits : ∀ c ∈ madeCalls mid, g.label ∉ c.labels)
    (hlater : g.label ∉ g.later) : FollowUpStage h g x mid (x.run h mid) := by
  induction mid using List.reverseRecOn with
  | nil => exact hs
  | append_singleton mid e ih =>
    obtain ⟨hbefore, hlast⟩ := hrun.append
    rw [madeCalls_append, List.forall_mem_append] at hadmits
    exact ((ih hbefore hadmits.1).next (hostTasks_run hx hbefore) hlast.event
      (admits_of_madeCalls hadmits.2) hlater).1

theorem not_occurs_runs_of_lacks {events : List Event} (hx : x.HostTasks) (hlacks : x.Lacks label)
    (hrun : HostRun h x events) (hadmits : ∀ c ∈ madeCalls events, label ∉ c.labels) :
    (x.run h events).Lacks label ∧ ¬ Occurs h (Runs h label) x events := by
  induction events using List.reverseRecOn with
  | nil => exact ⟨hlacks, not_occurs_nil⟩
  | append_singleton events e ih =>
    obtain ⟨hbefore, hlast⟩ := hrun.append
    rw [madeCalls_append, List.forall_mem_append] at hadmits
    obtain ⟨hlacks', hnot⟩ := ih hbefore hadmits.1
    have hstep := hostStep_next (h := h) (hostTasks_run hx hbefore) hlast.event
    obtain ⟨hlacks'', hcount⟩ := hstep.lacks hlacks' (admits_of_madeCalls hadmits.2)
    rw [run_concat, occurs_concat, not_or]
    exact ⟨hlacks'', hnot, not_runs_of_count hcount⟩

/-- A follow-up stays kept as long as no build of the host begins and no other one is kept. -/
theorem kept_run {events : List Event} (hx : x.HostTasks) (hkept : x.Kept g)
    (hrun : HostRun h x events) (hadmits : ∀ c ∈ madeCalls events, g.label ∉ c.labels)
    (hdefer : ∀ f, .deferFollowUp f ∉ madeCalls events)
    (hbegins : ¬ Occurs h (HostBegins h) x events) :
    (x.run h events).Kept g ∧ ¬ Occurs h (Runs h g.label) x events := by
  induction events using List.reverseRecOn with
  | nil => exact ⟨hkept, not_occurs_nil⟩
  | append_singleton events e ih =>
    obtain ⟨hbefore, hlast⟩ := hrun.append
    rw [madeCalls_append, List.forall_mem_append] at hadmits
    rw [occurs_concat, not_or] at hbegins
    simp only [mem_madeCalls_concat, not_or, forall_and] at hdefer
    obtain ⟨hkept', hnot⟩ := ih hbefore hadmits.1 hdefer.1 hbegins.1
    have hstep := hostStep_next (h := h) (hostTasks_run hx hbefore) hlast.event
    obtain ⟨hruns, ⟨_, hkept''⟩ | ⟨hbegin, _⟩⟩ := hstep.kept hkept'
      (admits_of_madeCalls hadmits.2) hdefer.2
    · rw [run_concat, occurs_concat, not_or]
      exact ⟨hkept'', hnot, hruns⟩
    · exact absurd hbegin hbegins.2

/-! ## The build that a follow-up was kept for -/

variable {s : Session} {before between after : List Event} {b : Event}

/-- A follow-up is kept for the next build of the host, that build begins in the event `b`, and the
label is nobody else's. -/
structure KeptRun (h : Host) (s : Session) (g : FollowUp) (before between : List Event) (b : Event)
    (after : List Event) : Prop where
  hostRun : HostRun h { session := s }
    (before ++ [.call (.deferFollowUp g)] ++ between ++ [b] ++ after)
  lacks : Lacks g.label { session := s }
  labels : ∀ c ∈ madeCalls (before ++ between ++ [b] ++ after), g.label ∉ c.labels
  later : g.label ∉ g.later
  /-- No other follow-up takes its place before the build begins. -/
  kept : ∀ f, .deferFollowUp f ∉ madeCalls between
  waits : ¬ Occurs h (HostBegins h)
    (run h { session := s } (before ++ [.call (.deferFollowUp g)])) between
  begins : HostBegins h (run h { session := s } (before ++ [.call (.deferFollowUp g)] ++ between)) b

theorem hostTasks_start : HostTasks { session := s } :=
  ⟨nofun, Nat.zero_le 1⟩

/-- Until the build begins, the follow-up is kept and does not run. -/
theorem KeptRun.waiting (hg : KeptRun h s g before between b after) :
    let events := before ++ [.call (.deferFollowUp g)] ++ between
    Kept g (run h { session := s } events) ∧
      ¬ Occurs h (Runs h g.label) { session := s } events := by
  obtain ⟨hrun, hlacks, hlabels, -, hdefer, hwaits, -⟩ := hg
  simp only [madeCalls_append, List.forall_mem_append] at hlabels
  obtain ⟨⟨⟨hearlier, hbetween⟩, -⟩, -⟩ := hlabels
  obtain ⟨hkeep, hwait⟩ := hrun.append.1.append.1.append
  obtain ⟨hlacks', hnot⟩ :=
    not_occurs_runs_of_lacks hostTasks_start hlacks hkeep.append.1 hearlier
  have hkept : Kept g (run h { session := s } (before ++ [.call (.deferFollowUp g)])) := by
    rw [run_concat]
    exact ⟨hlacks'.pending, rfl⟩
  have hnotKeep : ¬ Runs h g.label (run h { session := s } before) (.call (.deferFollowUp g)) :=
    not_runs_of_count rfl
  obtain ⟨hkept', hnot'⟩ :=
    kept_run (hostTasks_run hostTasks_start hkeep) hkept hwait hbetween hdefer hwaits
  intro events
  rw [run_append, occurs_append, occurs_concat, not_or, not_or]
  exact ⟨hkept', ⟨hnot, hnotKeep⟩, hnot'⟩

/-- When the build begins, the follow-up has not run, and it becomes pending. -/
theorem KeptRun.start (hg : KeptRun h s g before between b after) :
    let start := before ++ [.call (.deferFollowUp g)] ++ between ++ [b]
    let x := run h { session := s } start
    ¬ Occurs h (Runs h g.label) { session := s } start ∧ FollowUpStage h g x [] x := by
  obtain ⟨hkept, hnot⟩ := hg.waiting
  obtain ⟨hwait, hb⟩ := hg.hostRun.append.1.append
  have hlabels := hg.labels
  simp only [madeCalls_append, List.forall_mem_append] at hlabels
  -- The host keeps nothing while its build waits to begin.
  have hdefer : ∀ f, b ≠ .call (.deferFollowUp f) := by
    rintro f rfl
    obtain ⟨hbegin | hpos, -⟩ := hg.begins
    · cases hbegin
    · rw [hb.event.serial _ rfl rfl] at hpos
      exact Nat.lt_irrefl 0 hpos
  have hstep := hostStep_next (h := h) (hostTasks_run hostTasks_start hwait) hb.event
  obtain ⟨hruns, ⟨hnotBegins, -⟩ | ⟨-, hnone, hlifecycle⟩⟩ := hstep.kept hkept
    (admits_of_madeCalls hlabels.1.2) hdefer
  · exact absurd hg.begins hnotBegins
  · rw [← run_concat] at hnone hlifecycle
    intro start x
    refine ⟨?_, .pending (congrArg Lifecycle.pending hlifecycle) ?_ not_occurs_nil
      (iff_of_true (congrArg Lifecycle.success hlifecycle) fun _ => List.not_mem_nil)⟩
    · rw [occurs_concat, not_or]
      exact ⟨hnot, hruns⟩
    · rw [show x.deferred = none from hnone]
      nofun

/-- What has become of the follow-up before each event that follows, and when it runs there. -/
theorem KeptRun.at (hg : KeptRun h s g before between b after) {mid rest : List Event} {e : Event}
    (hsplit : after = mid ++ e :: rest) :
    let x := run h { session := s } (before ++ [.call (.deferFollowUp g)] ++ between ++ [b])
    FollowUpStage h g x mid (x.run h mid) ∧
      (Runs h g.label (x.run h mid) e ↔
        EndsWell (x.run h mid) e ∧ ¬ Occurs h (Decides h) x mid ∧
          ∀ unit, .unitDone unit false ∉ madeCalls mid) := by
  obtain ⟨-, hstage⟩ := hg.start
  have hlabels := hg.labels
  obtain ⟨hstart, hafter⟩ := hg.hostRun.append
  rw [hsplit, List.append_cons mid e rest] at hafter hlabels
  simp only [madeCalls_append, List.forall_mem_append] at hlabels
  obtain ⟨-, ⟨hmade, hmadeNow⟩, -⟩ := hlabels
  obtain ⟨hmid, he⟩ := hafter.append.1.append
  have htasks := hostTasks_run hostTasks_start hstart
  intro x
  have hstage' := followUpStage_run htasks hstage hmid hmade hg.later
  exact ⟨hstage', (hstage'.next (hostTasks_run htasks hmid) he.event
    (admits_of_madeCalls hmadeNow) hg.later).2⟩

/-- The first event after it in which any build begins or ends decides about a follow-up that the
host kept for its build: the follow-up runs there when a build ends with success in it and no unit
of the host's build was a failure before, and else nowhere. Which build it was kept for does not
matter. -/
theorem followUp_decided (hg : KeptRun h s g before between b after) :
    let start := before ++ [.call (.deferFollowUp g)] ++ between ++ [b]
    let x := run h { session := s } start
    ¬ Occurs h (Runs h g.label) { session := s } start ∧
      ∀ mid e rest, after = mid ++ e :: rest →
        (Runs h g.label (x.run h mid) e ↔
          EndsWell (x.run h mid) e ∧ ¬ Occurs h (Decides h) x mid ∧
            ∀ unit, .unitDone unit false ∉ madeCalls mid) :=
  ⟨hg.start.1, fun _ _ _ hsplit => (hg.at hsplit).2⟩

/-- A build that is to be debugged has ended, but reports its end only after the host's build has
begun: it runs the follow-up of the host. -/
theorem followUp_decided_sample :
    let g : FollowUp := { label := "host" }
    let before : List Event := [.call (.debug "Game" "Debug" { label := "start" }),
      .supervise 0 (.observeExit (some 0))]
    let between : List Event := [.call .buildBegin, .supervise 0 .drained]
    let x := run sampleHost (fresh sampleFiles)
      (before ++ [.call (.deferFollowUp g)] ++ between ++ [.resume 2])
    KeptRun sampleHost (fresh sampleFiles).session g before between (.resume 2) [.resume 0] ∧
      Runs sampleHost "host" x (.resume 0) := by
  intro g before between x
  have hg : KeptRun sampleHost (fresh sampleFiles).session g before between (.resume 2)
      [.resume 0] :=
    ⟨⟨by decide, by decide +kernel⟩, ⟨nofun, nofun⟩, by decide, by decide,
      fun f => by simp [between, madeCalls, Event.call?], by decide +kernel, by decide +kernel⟩
  have hends : EndsWell x (.resume 0) :=
    .inr ⟨0, ⟨"Game", 0⟩, rfl, by decide +kernel, by decide +kernel⟩
  have hruns := (followUp_decided hg).2 [] _ [] rfl
  exact ⟨hg, hruns.2 ⟨hends, not_occurs_nil, fun _ => List.not_mem_nil⟩⟩

/-- When no request for debugging tells the lifecycle something while the follow-up is pending, only
the host's builds decide about it. -/
theorem occurs_decides_iff {mid : List Event} (hx : x.HostTasks) (hs : FollowUpStage h g x [] x)
    (hrun : HostRun h x mid) (hadmits : ∀ c ∈ madeCalls mid, g.label ∉ c.labels)
    (hlater : g.label ∉ g.later)
    (hquiet : ¬ Occurs h
      (fun y e => y.lifecycle.pending = some g ∧ debugSignals h y e = true) x mid) :
    Occurs h (Decides h) x mid ↔ Occurs h (HostBegins h) x mid ∨ .buildDone ∈ madeCalls mid := by
  induction mid using List.reverseRecOn with
  | nil => exact iff_of_false not_occurs_nil (not_or.2 ⟨not_occurs_nil, List.not_mem_nil⟩)
  | append_singleton mid e ih =>
    obtain ⟨hbefore, -⟩ := hrun.append
    rw [madeCalls_append, List.forall_mem_append] at hadmits
    rw [occurs_concat, not_or] at hquiet
    have hih := ih hbefore hadmits.1 hquiet.1
    rw [occurs_concat, occurs_concat, mem_madeCalls_concat, or_or_or_comm, ← hih, Decides]
    cases followUpStage_run hx hs hbefore hadmits.1 hlater with
    | pending hpending => rw [or_iff_right fun hdebug => hquiet.2 ⟨hpending, hdebug⟩]
    | decided _ hmid => exact iff_of_true (.inl hmid) (.inl hmid)

/-- A follow-up that is kept for the host's next build runs in the `buildDone` that ends this build
and nowhere else, provided that no unit of the build failed. This holds of every run in which no
request for debugging begins a build or reports the end of one while the follow-up is pending. -/
theorem kept_followUp_runs (hg : KeptRun h s g before between b after)
    (hquiet : ¬ Occurs h (fun y e => y.lifecycle.pending = some g ∧ debugSignals h y e = true)
      (run h { session := s } (before ++ [.call (.deferFollowUp g)] ++ between ++ [b])) after) :
    let x := run h { session := s } (before ++ [.call (.deferFollowUp g)] ++ between ++ [b])
    ∀ mid e rest, after = mid ++ e :: rest →
      (Runs h g.label (x.run h mid) e ↔
        e = .call .buildDone ∧ .buildDone ∉ madeCalls mid ∧ ¬ Occurs h (HostBegins h) x mid ∧
          ∀ unit, .unitDone unit false ∉ madeCalls mid) := by
  intro x mid e rest hsplit
  obtain ⟨hstage, hruns⟩ := hg.at hsplit
  obtain ⟨hstart, hafter⟩ := hg.hostRun.append
  have hlabels := hg.labels
  rw [hsplit, List.append_cons mid e rest] at hafter hlabels hquiet
  simp only [madeCalls_append, List.forall_mem_append] at hlabels
  simp only [occurs_append, not_or] at hquiet
  have hdecides := occurs_decides_iff (hostTasks_run hostTasks_start hstart) hg.start.2
    hafter.append.1.append.1 hlabels.2.1.1 hg.later hquiet.1.1
  rw [hruns, hdecides, not_or]
  constructor
  · rintro ⟨hends, ⟨hbegins, hdone⟩, hunits⟩
    refine ⟨?_, hdone, hbegins, hunits⟩
    obtain hdebug | hdone := hends.signals
    · cases hstage with
      | pending hpending => exact absurd (.inl ⟨hpending, hdebug⟩) hquiet.1.2
      | decided _ hmid => exact absurd (hdecides.1 hmid) (not_or.2 ⟨hbegins, hdone⟩)
    · exact hdone
  · rintro ⟨hdone, hbefore, hbegins, hunits⟩
    exact ⟨.inl hdone, ⟨hbegins, hbefore⟩, hunits⟩

/-- The build of the host kills a build that is to be debugged, which reports its end before that of
the host begins. -/
theorem kept_followUp_runs_sample :
    let g : FollowUp := { label := "host" }
    let before : List Event := [.call (.debug "Game" "Debug" { label := "start" })]
    let between : List Event :=
      [.call .buildBegin, .supervise 0 .takeKill, .supervise 0 .release, .resume 0]
    let x := run sampleHost (fresh sampleFiles)
      (before ++ [.call (.deferFollowUp g)] ++ between ++ [.resume 2])
    let after : List Event := [.call (.unitDone "Game" true), .call .buildDone]
    KeptRun sampleHost (fresh sampleFiles).session g before between (.resume 2) after ∧
      Runs sampleHost "host" (x.next sampleHost (.call (.unitDone "Game" true)))
        (.call .buildDone) := by
  intro g before between x after
  have hg : KeptRun sampleHost (fresh sampleFiles).session g before between (.resume 2) after :=
    ⟨⟨by decide, by decide +kernel⟩, ⟨nofun, nofun⟩, by decide, by decide,
      fun f => by simp [between, madeCalls, Event.call?], by decide +kernel, by decide +kernel⟩
  have hruns := kept_followUp_runs hg (by decide +kernel) [.call (.unitDone "Game" true)] _ [] rfl
  exact ⟨hg, hruns.2 ⟨rfl, by decide, by decide +kernel,
    fun unit => by simp [madeCalls, Event.call?]⟩⟩

/-- In this run the follow-up that the host kept runs while the build of the host goes on, since a
build that was to be debugged reports its end. -/
theorem ran_while_hostBuildRunning :
    let events : List Event := [.call (.debug "Game" "Debug" { label := "start" }),
      .supervise 0 (.observeExit (some 0)), .call (.deferFollowUp { label := "host" }),
      .call .buildBegin, .supervise 0 .drained, .resume 2, .resume 0]
    let x := run sampleHost (fresh sampleFiles) events
    ¬ Occurs sampleHost (fun y e => e.call?.any Call.isHost = true ∧ 0 < y.hostWaiting)
        (fresh sampleFiles) events ∧
      x.ran = ["host"] ∧ x.session.hostBuildRunning = true := by
  decide +kernel

/-- The build of the host kills a build that was to be debugged, which reports its end after the
host's build has begun: the follow-up that the host kept runs nowhere, though its build ends without
a failure. -/
theorem not_ran_of_debug_ends :
    let events : List Event := [.call (.debug "Game" "Debug" { label := "start" }),
      .call (.deferFollowUp { label := "host" }), .call .buildBegin, .supervise 0 .takeKill,
      .supervise 0 .release, .resume 2, .resume 0, .call (.unitDone "Game" true),
      .call .buildDone]
    let x := run sampleHost (fresh sampleFiles) events
    ¬ Occurs sampleHost (fun y e => e.call?.any Call.isHost = true ∧ 0 < y.hostWaiting)
        (fresh sampleFiles) events ∧
      x.ran = [] ∧ x.calls.getLast? = some (.inl (.flag false)) := by
  decide +kernel

/-- A request for debugging that begins its build while the follow-up of the host is pending takes
its place: it runs nowhere, though its build ends without a failure. -/
theorem not_runs_of_debug_begins :
    let g : FollowUp := { label := "host" }
    let events : List Event := [.call (.deferFollowUp g), .call .buildBegin,
      .call (.debug "Game" "Debug" { label := "start" }), .supervise 0 (.observeExit (some 0)),
      .supervise 0 .drained, .resume 2, .call .buildDone]
    let x := run sampleHost (fresh sampleFiles) events
    ¬ Occurs sampleHost (fun y e => e.call?.any Call.isHost = true ∧ 0 < y.hostWaiting)
        (fresh sampleFiles) events ∧
      x.calls = [.inl .nothing, .inl .nothing,
        .inl (.outcome (.completed (.exited (some 0)) true)), .inl (.flag false)] ∧
      x.ran = ["start"] := by
  decide +kernel

end Interleaving

end SoloBuild
