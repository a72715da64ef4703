import Mathlib.Data.List.Nodup
import SoloBuild.Proofs.DeferredFollowUp
import SoloBuild.Proofs.History

/-!
# What the host tells, one call at a time

When nothing but the host calls, no process ever runs and every call ends at once. A follow-up that
the host keeps for its next build then has two owners in turn: it is kept until a build begins, and
pending until that build ends. This module says what is kept and what is due in terms of the calls
alone, and from that which follow-ups run, where, and how often.

## Key results

- `settled_next`: what one call does
- `deferred_told_iff`, `dueFollowUp_told_iff`, `building_told_iff`: the session after some calls
- `ran_told_sublist`: each time a follow-up runs it was kept anew
- `followUp_runs_told`: a follow-up runs at the end of the build it was kept for, once, or nowhere
-/

namespace SoloBuild

/-- With this call the host tells about its own builds, or that one is to be cancelled. -/
def Call.isNotice : Call → Bool
  | .deferFollowUp _ | .buildBegin | .unitDone .. | .buildDone | .cancelRequested => true
  | _ => false

/-- The follow-up that a call keeps for the host's next build. -/
def Call.deferred? : Call → Option FollowUp
  | .deferFollowUp f => some f
  | _ => none

/-- The call takes the follow-up that is kept, takes its place, or drops it. -/
def Call.takesDeferred : Call → Bool
  | .deferFollowUp _ | .buildBegin | .cancelRequested => true
  | _ => false

/-- After this call the pending follow-up is not due any more. -/
def Call.spoils : Call → Bool
  | .buildBegin | .buildDone | .cancelRequested => true
  | .unitDone _ success => !success
  | _ => false

/-- The follow-ups that calls keep for the host's next build, in order. -/
def deferredFollowUps (calls : List Call) : List FollowUp :=
  calls.filterMap Call.deferred?

/-- The follow-up was kept for the host's next build, and that build has not begun; nothing has
taken its place, and no cancellation came. -/
def IsDeferred (f : FollowUp) : List Call → Prop :=
  Since (fun _ c => c = .deferFollowUp f) fun c => c.takesDeferred = false

/-- The follow-up was kept for a build that has begun; since then no build began or ended, no
cancellation came, and no unit failed. -/
def IsDue (f : FollowUp) : List Call → Prop :=
  Since (fun earlier c => c = .buildBegin ∧ IsDeferred f earlier) fun c => c.spoils = false

/-- A follow-up stays kept until a build begins, and due until that build ends: the calls between
are these. -/
structure Served (between mid : List Call) : Prop where
  between : ∀ c ∈ between, c.takesDeferred = false
  mid : ∀ c ∈ mid, c.spoils = false

theorem isDue_iff_exists {f : FollowUp} {calls : List Call} :
    IsDue f calls ↔
      ∃ before between mid,
        calls = before ++ .deferFollowUp f :: (between ++ .buildBegin :: mid) ∧
          Served between mid := by
  constructor
  · rintro ⟨_, _, mid, rfl, ⟨rfl, before, _, between, rfl, rfl, hbetween⟩, hmid⟩
    exact ⟨before, between, mid, by simp, hbetween, hmid⟩
  · rintro ⟨before, between, mid, rfl, hbetween, hmid⟩
    have hdeferred : IsDeferred f (before ++ .deferFollowUp f :: between) :=
      ⟨before, _, between, rfl, rfl, hbetween⟩
    exact ⟨_, _, mid, by simp, ⟨rfl, hdeferred⟩, hmid⟩

theorem deferredFollowUps_append (calls more : List Call) :
    deferredFollowUps (calls ++ more) = deferredFollowUps calls ++ deferredFollowUps more :=
  List.filterMap_append

theorem mem_deferredFollowUps {f : FollowUp} {calls : List Call} :
    f ∈ deferredFollowUps calls ↔ .deferFollowUp f ∈ calls := by
  rw [deferredFollowUps, List.mem_filterMap]
  constructor
  · rintro ⟨c, hc, hf⟩
    cases c <;> cases hf
    exact hc
  · intro hc
    exact ⟨_, hc, rfl⟩

/-- When the labels are distinct, a follow-up is kept by one call only. -/
theorem eq_of_deferFollowUp {f : FollowUp} {before after before' after' : List Call}
    (hdistinct :
      ((deferredFollowUps (before ++ .deferFollowUp f :: after)).map FollowUp.label).Nodup)
    (hsplit : before ++ .deferFollowUp f :: after = before' ++ .deferFollowUp f :: after') :
    before = before' ∧ after = after' := by
  have hlabel : ∀ {calls : List Call}, Call.deferFollowUp f ∈ calls →
      f.label ∈ (deferredFollowUps calls).map FollowUp.label := fun hmem =>
    List.mem_map_of_mem (mem_deferredFollowUps.2 hmem)
  have hcons : deferredFollowUps (.deferFollowUp f :: after) = f :: deferredFollowUps after := rfl
  rw [deferredFollowUps_append, hcons, List.map_append, List.map_cons, List.nodup_middle,
    List.nodup_cons, List.mem_append, not_or] at hdistinct
  obtain ⟨⟨hbefore, hafter⟩, -⟩ := hdistinct
  -- The call stands in neither part, so both texts are split at the same place.
  have hparts := (List.append_cons_inj_of_notMem (fun hmem => hbefore (hlabel hmem))
    fun hmem => hafter (hlabel hmem)).1 hsplit
  exact ⟨hparts.1, hparts.2.2⟩

/-! ## One call -/

theorem Processes.sweep_nil (killed : Nat) (cs : List Channel) :
    Processes.sweep [] killed cs = ([], .inr killed) := by
  induction cs with
  | nil => rfl
  | cons c cs ih => exact ih

/-- When no process runs, the begin of a build of the host does not wait. -/
theorem Session.begin_buildBegin (h : Host) {s : Session} (hprocesses : s.engine.processes = []) :
    s.begin h .buildBegin = ({ s with hostBuildRunning := true }.hostBegun, .inl .nothing) := by
  rw [begin, afterSweep]
  dsimp only
  rw [hprocesses, Processes.sweep_nil, ← hprocesses]
  rfl

/-- A follow-up that queues no other leaves the lifecycle alone when it runs. -/
theorem Engine.lifecycle_fire (e : Engine) {f : FollowUp} (hlater : f.later = []) :
    (e.fire f).lifecycle = e.lifecycle := by
  rw [fire, FollowUp.next?, hlater]

namespace Interleaving

/-- The host has begun a build and not ended it. -/
def building (x : Interleaving) : Bool :=
  x.session.hostBuildRunning

/-- The follow-up that the end of a build would run now. -/
def dueFollowUp (x : Interleaving) : Option FollowUp :=
  (x.lifecycle.handle .done).2

/-- No process runs, and no follow-up that is kept or pending queues another one. -/
structure Settled (x : Interleaving) : Prop where
  processes : x.processes = []
  pending : ∀ f, x.lifecycle.pending = some f → f.later = []
  deferred : ∀ f, x.deferred = some f → f.later = []

/-- What a call of the host does in such a session. -/
inductive NoticeStep (x : Interleaving) (c : Call) (y : Interleaving) : Prop where
  | deferFollowUp (f : FollowUp) (hc : c = .deferFollowUp f) (hdeferred : y.deferred = some f)
      (hlifecycle : y.lifecycle = x.lifecycle) (hbuilding : y.building = x.building)
      (hran : y.ran = x.ran)
  | buildBegin (hc : c = .buildBegin) (hdeferred : y.deferred = none)
      (hlifecycle : y.lifecycle = { phase := .running, pending := x.deferred, success := true })
      (hbuilding : y.building = true) (hran : y.ran = x.ran)
  | unitDone (unit : String) (success : Bool) (hc : c = .unitDone unit success)
      (hdeferred : y.deferred = x.deferred)
      (hlifecycle : y.lifecycle = (x.lifecycle.handle (.unitDone unit success)).1)
      (hbuilding : y.building = x.building) (hran : y.ran = x.ran)
  | buildDone (hc : c = .buildDone) (hdeferred : y.deferred = x.deferred)
      (hlifecycle : y.lifecycle = (x.lifecycle.handle .done).1) (hbuilding : y.building = false)
      (hran : y.ran = x.ran ++ (x.dueFollowUp.map FollowUp.label).toList)
      (hanswer : y.calls = x.calls ++ [.inl (.flag x.dueFollowUp.isSome)])
  | cancelRequested (hc : c = .cancelRequested) (hdeferred : y.deferred = none)
      (hlifecycle : y.lifecycle = (x.lifecycle.handle .cancelRequested).1)
      (hbuilding : y.building = x.building) (hran : y.ran = x.ran)

variable {h : Host} {x y : Interleaving} {c : Call} {f : FollowUp}

theorem dueFollowUp_eq_some_iff :
    x.dueFollowUp = some f ↔ x.lifecycle.pending = some f ∧ x.lifecycle.success = true := by
  rw [dueFollowUp, Lifecycle.due_iff]
  exact and_iff_right rfl

/-- The end of a build, in terms of the follow-up that is due. -/
theorem signal_done (hx : x.Settled) :
    (x.session.engine.signal .done).1.lifecycle = (x.lifecycle.handle .done).1 ∧
      (x.session.engine.signal .done).1.ran =
        x.ran ++ (x.dueFollowUp.map FollowUp.label).toList ∧
      (x.session.engine.signal .done).2 = x.dueFollowUp.isSome := by
  rw [Engine.signal]
  split
  · next lifecycle hhandle =>
    have hnone : x.dueFollowUp = none := congrArg Prod.snd hhandle
    rw [hnone]
    exact ⟨(congrArg Prod.fst hhandle).symm, (List.append_nil _).symm, rfl⟩
  · next lifecycle f hhandle =>
    have hdue : x.dueFollowUp = some f := congrArg Prod.snd hhandle
    have hlater := hx.pending f (dueFollowUp_eq_some_iff.1 hdue).1
    rw [hdue]
    refine ⟨?_, Engine.ran_fire _ f, rfl⟩
    rw [Engine.lifecycle_fire _ hlater]
    exact (congrArg Prod.fst hhandle).symm

theorem noticeStep_next (hx : x.Settled) (hc : c.isNotice = true) :
    NoticeStep x c (x.next h (.call c)) := by
  cases c with
  | deferFollowUp f => exact .deferFollowUp f rfl rfl rfl rfl rfl
  | buildBegin =>
    have hbegin := Session.begin_buildBegin h hx.processes
    obtain ⟨hlifecycle, hran, hdeferred⟩ :=
      Session.hostBegun_followUps { x.session with hostBuildRunning := true }
    have hsession : (x.next h (.call .buildBegin)).session =
        { x.session with hostBuildRunning := true }.hostBegun := congrArg Prod.fst hbegin
    refine .buildBegin rfl ?_ ?_ ?_ ?_
    · rw [deferred, hsession, hdeferred]
    · rw [lifecycle, hsession, hlifecycle]
      rfl
    · rw [building, hsession, Session.hostBegun]
      split <;> rfl
    · rw [ran, hsession, hran]
      rfl
  | unitDone unit success => exact .unitDone unit success rfl rfl rfl rfl rfl
  | buildDone =>
    obtain ⟨hlifecycle, hran, hanswer⟩ := signal_done hx
    exact .buildDone rfl rfl hlifecycle rfl hran
      (congrArg (fun fired => x.calls ++ [.inl (.flag fired)]) hanswer)
  | cancelRequested => exact .cancelRequested rfl rfl rfl rfl rfl
  | _ => cases hc

/-- A call of the host leaves the session such that the next call does not wait either. -/
theorem settled_next (hx : x.Settled) (hc : c.isNotice = true)
    (hplain : ∀ f, c = .deferFollowUp f → f.later = []) : (x.next h (.call c)).Settled := by
  obtain ⟨hprocesses, hpending, hdeferred⟩ := hx
  have hstep := noticeStep_next (h := h) ⟨hprocesses, hpending, hdeferred⟩ hc
  have hkept : (x.next h (.call c)).processes = [] := by
    cases c with
    | buildBegin =>
      have hbegin := Session.begin_buildBegin h hprocesses
      have hsession := congrArg (fun begun => begun.1.engine.processes) hbegin
      exact hsession.trans ((Session.processes_hostBegun _).trans hprocesses)
    | buildDone => exact (Engine.processes_signal _ _).trans hprocesses
    | deferFollowUp | unitDone | cancelRequested => exact hprocesses
    | _ => cases hc
  refine ⟨hkept, fun f hf => ?_, fun f hf => ?_⟩
  -- The begin of a build makes what was kept pending; nothing else becomes pending.
  · cases hstep with
    | deferFollowUp _ _ _ hlifecycle => exact hpending f (hlifecycle ▸ hf)
    | buildBegin _ _ hlifecycle =>
      rw [hlifecycle] at hf
      exact hdeferred f hf
    | unitDone _ _ _ _ hlifecycle =>
      rw [hlifecycle] at hf
      exact hpending f hf
    | buildDone _ _ hlifecycle | cancelRequested _ _ hlifecycle =>
      rw [hlifecycle] at hf
      cases hf
  -- What becomes kept is what the call keeps.
  · cases hstep with
    | deferFollowUp g hg hkeeps =>
      cases hkeeps.symm.trans hf
      exact hplain f hg
    | unitDone _ _ _ hsame | buildDone _ hsame => exact hdeferred f (hsame ▸ hf)
    | buildBegin _ hnone | cancelRequested _ hnone => cases hnone.symm.trans hf

theorem NoticeStep.deferred_iff (hstep : NoticeStep x c y) :
    y.deferred = some f ↔
      c = .deferFollowUp f ∨ x.deferred = some f ∧ c.takesDeferred = false := by
  cases hstep with
  | deferFollowUp g hc hdeferred => simp [hc, hdeferred, Call.takesDeferred]
  | buildBegin hc hdeferred | unitDone _ _ hc hdeferred | buildDone hc hdeferred
    | cancelRequested hc hdeferred => simp [hc, hdeferred, Call.takesDeferred]

theorem NoticeStep.dueFollowUp_iff (hstep : NoticeStep x c y) :
    y.dueFollowUp = some f ↔
      (c = .buildBegin ∧ x.deferred = some f) ∨ x.dueFollowUp = some f ∧ c.spoils = false := by
  rw [dueFollowUp_eq_some_iff, dueFollowUp_eq_some_iff]
  cases hstep with
  | deferFollowUp g hc _ hlifecycle => simp [hc, hlifecycle, Call.spoils]
  | buildBegin hc _ hlifecycle => simp [hc, hlifecycle, Call.spoils]
  | unitDone unit success hc _ hlifecycle =>
    -- A failure counts, since the follow-up is pending.
    rw [hlifecycle]
    cases success <;> cases hpending : x.lifecycle.pending <;>
      simp [hc, hpending, Lifecycle.handle, Call.spoils]
  | buildDone hc _ hlifecycle | cancelRequested hc _ hlifecycle =>
    simp [hc, hlifecycle, Lifecycle.handle, Call.spoils]

theorem NoticeStep.building_iff (hstep : NoticeStep x c y) :
    y.building = true ↔ c = .buildBegin ∨ x.building = true ∧ c ≠ .buildDone := by
  cases hstep with
  | deferFollowUp _ hc _ _ hbuilding | unitDone _ _ hc _ _ hbuilding
    | cancelRequested hc _ _ hbuilding | buildBegin hc _ _ hbuilding
    | buildDone hc _ _ hbuilding => simp [hc, hbuilding]

theorem NoticeStep.mem_ran_iff (hstep : NoticeStep x c y) {label : String} :
    label ∈ y.ran ↔
      (c = .buildDone ∧ ∃ f, x.dueFollowUp = some f ∧ f.label = label) ∨ label ∈ x.ran := by
  cases hstep with
  | deferFollowUp _ hc _ _ _ hran | buildBegin hc _ _ _ hran | unitDone _ _ hc _ _ _ hran
    | cancelRequested hc _ _ _ hran => simp [hc, hran]
  | buildDone hc _ _ _ hran =>
    cases hdue : x.dueFollowUp <;> simp [hc, hran, hdue, or_comm, eq_comm]

/-- The labels of the follow-ups that have run, and of those that are pending or kept. -/
def labels (x : Interleaving) : List String :=
  x.ran ++ ((x.lifecycle.pending.map FollowUp.label).toList ++
    (x.deferred.map FollowUp.label).toList)

/-- What has run, is pending, or is kept after a call had run, was pending, or was kept before it, or
is kept by it. -/
theorem NoticeStep.labels_sublist (hstep : NoticeStep x c y) :
    y.labels.Sublist (x.labels ++ (c.deferred?.map FollowUp.label).toList) := by
  rw [labels, labels, List.append_assoc]
  cases hstep with
  | deferFollowUp f hc hdeferred hlifecycle _ hran =>
    rw [hc, hdeferred, hlifecycle, hran]
    exact ((List.sublist_append_left _ _).append_right [f.label]).append_left x.ran
  | buildBegin hc hdeferred hlifecycle _ hran =>
    rw [hc, hdeferred, hlifecycle, hran]
    exact ((List.sublist_append_right _ _).append_right []).append_left x.ran
  | unitDone unit success hc hdeferred hlifecycle _ hran =>
    rw [hc, hdeferred, hlifecycle, hran]
    exact (List.sublist_append_left _ []).append_left x.ran
  | buildDone hc hdeferred hlifecycle _ hran =>
    -- What is due was pending.
    have hdue : (x.dueFollowUp.map FollowUp.label).toList.Sublist
        (x.lifecycle.pending.map FollowUp.label).toList := by
      cases hdue : x.dueFollowUp with
      | none => exact List.nil_sublist _
      | some f => rw [(dueFollowUp_eq_some_iff.1 hdue).1]
    have hkept := hdue.append_right (x.deferred.map FollowUp.label).toList
    rw [hc, hdeferred, hlifecycle, hran, List.append_assoc]
    exact (hkept.trans (List.sublist_append_left _ [])).append_left x.ran
  | cancelRequested hc hdeferred hlifecycle _ hran =>
    rw [hc, hdeferred, hlifecycle, hran]
    exact (List.nil_sublist _).append_left x.ran

/-! ## A list of calls -/

/-- A fresh session after calls of the host, made one at a time. -/
def told (h : Host) (files : FileTree) (calls : List Call) : Interleaving :=
  (fresh files).run h (calls.map .call)

variable (h) (files : FileTree) {calls : List Call}

theorem told_concat (calls : List Call) (c : Call) :
    told h files (calls ++ [c]) = (told h files calls).next h (.call c) := by
  rw [told, List.map_append, List.map_singleton, run_concat, told]

/-- All calls are the host's, and no follow-up that they keep queues another one. -/
structure Notices (calls : List Call) : Prop where
  notice : ∀ c ∈ calls, c.isNotice = true
  plain : ∀ f, .deferFollowUp f ∈ calls → f.later = []

theorem Notices.of_append {more : List Call} (hcalls : Notices (calls ++ more)) : Notices calls :=
  ⟨fun c hc => hcalls.notice c (List.mem_append_left more hc),
    fun f hf => hcalls.plain f (List.mem_append_left more hf)⟩

theorem settled_told (hcalls : Notices calls) : (told h files calls).Settled := by
  induction calls using List.reverseRecOn with
  | nil => exact ⟨rfl, nofun, nofun⟩
  | append_singleton calls c ih =>
    have hmem : c ∈ calls ++ [c] := List.mem_append_right calls List.mem_cons_self
    rw [told_concat]
    exact settled_next (ih hcalls.of_append) (hcalls.notice c hmem)
      fun f hf => hcalls.plain f (hf ▸ hmem)

theorem noticeStep_told (hcalls : Notices (calls ++ [c])) :
    NoticeStep (told h files calls) c (told h files (calls ++ [c])) := by
  rw [told_concat]
  exact noticeStep_next (settled_told h files hcalls.of_append)
    (hcalls.notice c (List.mem_append_right calls List.mem_cons_self))

theorem deferred_told_iff (hcalls : Notices calls) :
    (told h files calls).deferred = some f ↔ IsDeferred f calls := by
  induction calls using List.reverseRecOn with
  | nil => exact iff_of_false nofun not_since_nil
  | append_singleton calls c ih =>
    rw [(noticeStep_told h files hcalls).deferred_iff, ih hcalls.of_append, IsDeferred, since_concat]

theorem dueFollowUp_told_iff (hcalls : Notices calls) :
    (told h files calls).dueFollowUp = some f ↔ IsDue f calls := by
  induction calls using List.reverseRecOn with
  | nil => exact iff_of_false nofun not_since_nil
  | append_singleton calls c ih =>
    rw [(noticeStep_told h files hcalls).dueFollowUp_iff, ih hcalls.of_append,
      deferred_told_iff h files hcalls.of_append, IsDue, since_concat]

theorem building_told_iff (hcalls : Notices calls) :
    (told h files calls).building = true ↔
      Since (fun _ c => c = .buildBegin) (· ≠ .buildDone) calls := by
  induction calls using List.reverseRecOn with
  | nil => exact iff_of_false nofun not_since_nil
  | append_singleton calls c ih =>
    rw [(noticeStep_told h files hcalls).building_iff, ih hcalls.of_append, since_concat]

/-- A follow-up with a label has run when one was due at the end of a build. -/
theorem mem_ran_told_iff (hcalls : Notices calls) {label : String} :
    label ∈ (told h files calls).ran ↔
      Since (fun start c => c = .buildDone ∧ ∃ f, IsDue f start ∧ f.label = label) (fun _ => True)
        calls := by
  induction calls using List.reverseRecOn with
  | nil => exact iff_of_false List.not_mem_nil not_since_nil
  | append_singleton calls c ih =>
    have hdue : (∃ f, (told h files calls).dueFollowUp = some f ∧ f.label = label) ↔
        ∃ f, IsDue f calls ∧ f.label = label :=
      exists_congr fun f => and_congr_left fun _ => dueFollowUp_told_iff h files hcalls.of_append
    rw [(noticeStep_told h files hcalls).mem_ran_iff, ih hcalls.of_append, hdue, since_concat,
      and_true]

theorem labels_told_sublist (hcalls : Notices calls) :
    (told h files calls).labels.Sublist ((deferredFollowUps calls).map FollowUp.label) := by
  induction calls using List.reverseRecOn with
  | nil => exact List.nil_sublist _
  | append_singleton calls c ih =>
    have hlast : (deferredFollowUps [c]).map FollowUp.label =
        (c.deferred?.map FollowUp.label).toList := by
      cases hc : c.deferred? <;> simp [deferredFollowUps, hc]
    rw [deferredFollowUps_append, List.map_append, hlast]
    have hstep := (noticeStep_told h files hcalls).labels_sublist
    exact hstep.trans ((ih hcalls.of_append).append_right _)

/-- Each time a follow-up runs it was kept anew. -/
theorem ran_told_sublist (hcalls : Notices calls) :
    (told h files calls).ran.Sublist ((deferredFollowUps calls).map FollowUp.label) :=
  (List.sublist_append_left _ _).trans (labels_told_sublist h files hcalls)

theorem told_append (calls more : List Call) :
    told h files (calls ++ more) = (told h files calls).run h (more.map .call) := by
  rw [told, List.map_append, run_append, told]

theorem length_calls_told (calls : List Call) : (told h files calls).calls.length = calls.length := by
  have hmade : madeCalls (calls.map .call) = calls := by
    rw [madeCalls, List.filterMap_map]
    exact List.filterMap_some
  rw [told, length_calls_run, hmade]
  exact Nat.zero_add _

/-- The end of a build is told whether it ran a follow-up. -/
theorem answer_buildDone {start rest : List Call}
    (hcalls : Notices (start ++ .buildDone :: rest)) :
    (told h files (start ++ .buildDone :: rest)).calls[start.length]? =
      some (.inl (.flag (told h files start).dueFollowUp.isSome)) := by
  rw [List.append_cons] at hcalls ⊢
  rw [told_append]
  apply answered_run
  cases noticeStep_told h files hcalls.of_append with
  | buildDone _ _ _ _ _ hanswer =>
    rw [hanswer, ← length_calls_told h files start]
    exact List.getElem?_concat_length
  | deferFollowUp _ hc | buildBegin hc | unitDone _ _ hc | cancelRequested hc => cases hc

/-- The end of a build tells that it ran a follow-up exactly when one was due. -/
theorem answer_buildDone_iff {start rest : List Call}
    (hcalls : Notices (start ++ .buildDone :: rest)) :
    (told h files (start ++ .buildDone :: rest)).calls[start.length]? =
        some (.inl (.flag true)) ↔ ∃ f, IsDue f start := by
  rw [answer_buildDone h files hcalls, Option.some.injEq, Sum.inl.injEq, Answer.flag.injEq,
    Option.isSome_iff_exists]
  exact exists_congr fun f => dueFollowUp_told_iff h files hcalls.of_append

/-- What is due at the end of a build has run. -/
theorem mem_ran_of_isDue {start rest : List Call}
    (hcalls : Notices (start ++ .buildDone :: rest)) (hdue : IsDue f start) :
    f.label ∈ (told h files (start ++ .buildDone :: rest)).ran :=
  (mem_ran_told_iff h files hcalls).2
    ⟨start, .buildDone, rest, rfl, ⟨rfl, f, hdue, rfl⟩, fun _ _ => trivial⟩

/-- A follow-up that was kept and has run was served after the call that kept it. -/
theorem exists_served_of_mem_ran {before after : List Call}
    (hcalls : Notices (before ++ .deferFollowUp f :: after))
    (hdistinct :
      ((deferredFollowUps (before ++ .deferFollowUp f :: after)).map FollowUp.label).Nodup)
    (hmem : f.label ∈ (told h files (before ++ .deferFollowUp f :: after)).ran) :
    ∃ between mid rest, after = between ++ .buildBegin :: (mid ++ .buildDone :: rest) ∧
      Served between mid := by
  obtain ⟨start, _, rest, hend, ⟨rfl, g, hdue, hlabel⟩, -⟩ :=
    (mem_ran_told_iff h files hcalls).1 hmem
  obtain ⟨before', between, mid, rfl, hserved⟩ := isDue_iff_exists.1 hdue
  -- What ran was kept by some call; the labels tell that it was the same follow-up.
  have hf : f ∈ deferredFollowUps (before ++ .deferFollowUp f :: after) := by
    rw [mem_deferredFollowUps]
    simp
  have hg : g ∈ deferredFollowUps (before ++ .deferFollowUp f :: after) := by
    rw [hend, mem_deferredFollowUps]
    simp
  obtain rfl : g = f := List.inj_on_of_nodup_map hdistinct hg hf hlabel
  have hsame : before ++ .deferFollowUp g :: after =
      before' ++ .deferFollowUp g :: (between ++ .buildBegin :: (mid ++ .buildDone :: rest)) := by
    rw [hend]
    simp
  exact ⟨between, mid, rest, (eq_of_deferFollowUp hdistinct hsame).2, hserved⟩

/-- When the host alone calls, a follow-up that it keeps for its next build runs exactly if a build
begins before anything takes its place or drops it, and that build ends before anything spoils it.
It then runs once, in the call that ends this build, and that call tells so. No other end of a build
tells that a follow-up ran. -/
theorem followUp_runs_told (h : Host) (files : FileTree) (calls : List Call)
    (hcalls : Notices calls)
    (hdistinct : ((deferredFollowUps calls).map FollowUp.label).Nodup) :
    (∀ before f after, calls = before ++ .deferFollowUp f :: after →
      (f.label ∈ (told h files calls).ran ↔
        ∃ between mid rest, after = between ++ .buildBegin :: (mid ++ .buildDone :: rest) ∧
          Served between mid) ∧
      ∀ between mid rest, after = between ++ .buildBegin :: (mid ++ .buildDone :: rest) →
        Served between mid →
          let start := before ++ .deferFollowUp f :: (between ++ .buildBegin :: mid)
          (told h files calls).ran.count f.label = 1 ∧
            Runs h f.label (told h files start) (.call .buildDone) ∧
            (told h files calls).calls[start.length]? = some (.inl (.flag true))) ∧
      (∀ start rest, calls = start ++ .buildDone :: rest →
        (told h files calls).calls[start.length]? = some (.inl (.flag true)) →
          ∃ before f between mid,
            start = before ++ .deferFollowUp f :: (between ++ .buildBegin :: mid) ∧
              Served between mid) ∧
      ((told h files calls).session.hostBuildRunning = true ↔
        ∃ before after, calls = before ++ .buildBegin :: after ∧ .buildDone ∉ after) := by
  refine ⟨fun before f after hsplit => ⟨⟨fun hmem => ?_, ?_⟩, ?_⟩, ?_, ?_⟩
  · subst hsplit
    exact exists_served_of_mem_ran h files hcalls hdistinct hmem
  · rintro ⟨between, mid, rest, rfl, hserved⟩
    have hend : calls =
        (before ++ .deferFollowUp f :: (between ++ .buildBegin :: mid)) ++ .buildDone :: rest := by
      rw [hsplit]
      simp
    subst hend
    exact mem_ran_of_isDue h files hcalls
      (isDue_iff_exists.2 ⟨before, between, mid, rfl, hserved⟩)
  · intro between mid rest hafter hserved start
    have hdue : IsDue f start := isDue_iff_exists.2 ⟨before, between, mid, rfl, hserved⟩
    have hend : calls = start ++ .buildDone :: rest := by
      rw [hsplit, hafter]
      simp [start]
    subst hend
    have hpending := (dueFollowUp_told_iff h files hcalls.of_append).2 hdue
    obtain ⟨hpend, hsuccess⟩ := dueFollowUp_eq_some_iff.1 hpending
    refine ⟨?_, (runs_buildDone_iff hpend).2 hsuccess,
      (answer_buildDone_iff h files hcalls).2 ⟨f, hdue⟩⟩
    -- It does not run twice, since it would have to be kept twice.
    exact List.count_eq_one_of_mem ((ran_told_sublist h files hcalls).nodup hdistinct)
      (mem_ran_of_isDue h files hcalls hdue)
  · rintro start rest rfl hanswer
    obtain ⟨f, hdue⟩ := (answer_buildDone_iff h files hcalls).1 hanswer
    obtain ⟨before, between, mid, heq, hserved⟩ := isDue_iff_exists.1 hdue
    exact ⟨before, f, between, mid, heq, hserved⟩
  · rw [← building, building_told_iff h files hcalls, since_eq_iff]

/-- One follow-up waits while the next build is under way, and is dropped with the cancellation; the
one that was kept before it runs. -/
theorem followUp_runs_told_sample :
    let first : FollowUp := { label := "first" }
    let second : FollowUp := { label := "second" }
    let start : List Call := [.deferFollowUp first, .buildBegin, .deferFollowUp second,
      .unitDone "Game" true]
    let rest : List Call := [.cancelRequested, .buildBegin, .buildDone]
    let calls := start ++ .buildDone :: rest
    Notices calls ∧ ((deferredFollowUps calls).map FollowUp.label).Nodup ∧
      (told sampleHost sampleFiles calls).ran.count "first" = 1 ∧
      Runs sampleHost "first" (told sampleHost sampleFiles start) (.call .buildDone) ∧
      (told sampleHost sampleFiles calls).calls[start.length]? = some (.inl (.flag true)) ∧
      (told sampleHost sampleFiles calls).ran = ["first"] := by
  intro first second start rest calls
  have hcalls : Notices calls := by
    refine ⟨by decide, fun f hf => ?_⟩
    simp only [calls, start, rest, List.cons_append, List.nil_append, List.mem_cons,
      Call.deferFollowUp.injEq, reduceCtorEq, List.not_mem_nil, or_false, false_or] at hf
    obtain rfl | rfl := hf <;> rfl
  have hdistinct : ((deferredFollowUps calls).map FollowUp.label).Nodup := by decide
  obtain ⟨hkept, -⟩ := followUp_runs_told sampleHost sampleFiles calls hcalls hdistinct
  have hserved : Served [] [.deferFollowUp second, .unitDone "Game" true] :=
    ⟨nofun, by decide⟩
  obtain ⟨hcount, hruns, hanswer⟩ := (hkept [] first _ rfl).2 [] _ rest rfl hserved
  exact ⟨hcalls, hdistinct, hcount, hruns, hanswer, by decide +kernel⟩

end Interleaving

end SoloBuild
