import SoloBuild.Proofs.FollowUps

/-!
# The follow-up of a cancelled build

A request for debugging waits for its process, and a call that cancels everything meets it there: it
asks for the process to be killed, waits for its release, and drops the pending follow-up only then.
The process may have ended by itself before it sees the request to be killed. Then it is released as
one that exited, but counted as killed; whether its follow-up runs is up to which of the two calls
goes on first.

## Key results

- `cancelling_run`: as long as nobody is answered, the follow-up is pending and has not run
- `CancelStage`, `cancelStage_run`: where the two calls have got to, and when the follow-up runs
- `ran_iff_of_cancelled`: when the follow-up of a process counted as killed runs all the same
-/

namespace SoloBuild

namespace Session

variable (h : Host) (s : Session)

/-- A cancellation that has swept some channels runs no follow-up. It drops the one that is pending
when it ends, and leaves the lifecycle alone as long as it waits. -/
theorem afterSweep_cancelAll_cases (killed : Nat) (cs : List Channel) {swept : Session × Progress}
    (hswept : s.afterSweep (s.engine.processes.sweep killed cs) .cancelAll cancelledAll = swept) :
    swept.1.engine.ran = s.engine.ran ∧
      ((∃ count, swept.2 = .inl (.count count) ∧
          swept.1.engine.lifecycle = { s.engine.lifecycle with pending := none }) ∨
        ∃ sweep, swept.2 = .inr (.cancelAll sweep) ∧
          swept.1.engine.lifecycle = s.engine.lifecycle) := by
  subst hswept
  obtain ⟨heq, _⟩ | ⟨_, _, _, _, _, _, _, _, heq⟩ :=
    afterSweep_cases s killed cs .cancelAll cancelledAll
  · rw [heq, cancelledAll, Engine.finishCancel]
    split
    · exact ⟨rfl, .inl ⟨_, rfl, rfl⟩⟩
    · exact ⟨rfl, .inl ⟨_, rfl, rfl⟩⟩
  · rw [heq]
    exact ⟨rfl, .inr ⟨_, rfl, rfl⟩⟩

end Session

namespace Interleaving

variable {h : Host} {x : Interleaving} {s : Session} {project configuration : String} {f : FollowUp}

/-! ## Until one of the calls is answered -/

/-- What holds as long as all calls wait that were made for debugging or to cancel everything. -/
structure Cancelling (s : Session) (f : FollowUp) (x : Interleaving) : Prop where
  ran : x.ran = s.engine.ran
  /-- Either a task cancels, or it debugs and its follow-up is pending. -/
  tasks : ∀ (place : Nat) (task : Task), x.calls[place]? = some (.inr task) →
    (∃ sweep, task = .cancelAll sweep) ∨
      (∃ completion, task = .unitRun completion) ∧
        x.lifecycle = { phase := .running, pending := some f, success := true }

/-- A call that cancels, and waits on, changes nothing of this. -/
theorem Cancelling.of_tasks (hx : Cancelling s f x) {y : Interleaving} (hran : y.ran = x.ran)
    (hlifecycle : y.lifecycle = x.lifecycle)
    (htasks : ∀ (place : Nat) (task : Task), y.calls[place]? = some (.inr task) →
      x.calls[place]? = some (.inr task) ∨ ∃ sweep, task = .cancelAll sweep) :
    Cancelling s f y := by
  refine ⟨hran.trans hx.ran, fun place task hcall => ?_⟩
  obtain hcall | hsweep := htasks place task hcall
  · rw [hlifecycle]
    exact hx.tasks place task hcall
  · exact .inl hsweep

theorem Cancelling.next (hx : Cancelling s f x) {e : Event}
    (he : ∀ c, e = .call c → c = .debug project configuration f ∨ c = .cancelAll)
    (hopen : ∀ (place : Nat) (answer : Answer), (x.next h e).calls[place]? ≠ some (.inl answer)) :
    Cancelling s f (x.next h e) := by
  cases e with
  | call c =>
    have hnew : (x.next h (.call c)).calls[x.calls.length]? = some (x.session.begin h c).2 :=
      List.getElem?_concat_length
    -- A task that waits now waited before, or is that of the call just made.
    have htasks : ∀ (place : Nat) (task : Task),
        (x.next h (.call c)).calls[place]? = some (.inr task) →
          x.calls[place]? = some (.inr task) ∨ (x.session.begin h c).2 = .inr task := by
      intro place task hcall
      obtain hcall | ⟨_, hc, _, htask⟩ | ⟨_, hc, _⟩ := getElem?_calls_next_cases hcall
      · exact .inl hcall
      · cases hc
        exact .inr htask
      · cases hc
    obtain rfl | rfl := he c rfl
    · obtain ⟨hran, ⟨outcome, hanswer, _⟩ | ⟨completion, hwait, hlifecycle⟩⟩ :=
        Session.begin_debug_cases h x.session project configuration f
      -- An answer at once is one too many.
      · rw [hanswer] at hnew
        exact absurd hnew (hopen _ _)
      · refine ⟨hran.trans hx.ran, fun place task hcall => ?_⟩
        obtain hcall | htask := htasks place task hcall
        · exact (hx.tasks place task hcall).imp_right fun ⟨hunit, _⟩ => ⟨hunit, hlifecycle⟩
        · rw [hwait] at htask
          cases htask
          exact .inr ⟨⟨_, rfl⟩, hlifecycle⟩
    · obtain ⟨hran, ⟨count, hanswer, _⟩ | ⟨sweep, hwait, hlifecycle⟩⟩ :=
        x.session.afterSweep_cancelAll_cases 0 Channel.all rfl
      · exact absurd (hnew.trans (congrArg some hanswer)) (hopen _ _)
      · refine hx.of_tasks hran hlifecycle fun place task hcall => ?_
        refine (htasks place task hcall).imp_right fun htask => ?_
        cases hwait.symm.trans htask
        exact ⟨_, rfl⟩
  | resume place =>
    obtain heq | ⟨task, htask, hreleased, heq⟩ := next_resume_cases h x place
    · rw [heq]
      exact hx
    · have hnew := getElem?_calls_resume (h := h) htask hreleased
      obtain ⟨sweep, rfl⟩ | ⟨⟨completion, rfl⟩, _⟩ := hx.tasks place task htask
      · obtain ⟨hran, ⟨count, hanswer, _⟩ | ⟨sweep', hwait, hlifecycle⟩⟩ :=
          x.session.afterSweep_cancelAll_cases (sweep.killed + 1) sweep.rest rfl
        · exact absurd (hnew.trans (congrArg some hanswer)) (hopen _ _)
        · refine hx.of_tasks (by rw [heq]; exact hran) (by rw [heq]; exact hlifecycle) ?_
          intro other task hcall
          obtain hcall | ⟨_, hc, _⟩ | ⟨_, hc, htask', _, hresumed, _⟩ :=
            getElem?_calls_next_cases hcall
          · exact .inl hcall
          · cases hc
          · cases hc
            cases htask.symm.trans htask'
            cases hwait.symm.trans hresumed
            exact .inr ⟨_, rfl⟩
      -- A request for debugging that goes on is answered.
      · exact absurd hnew (hopen _ _)
  | supervise process step => exact ⟨hx.ran, hx.tasks⟩
  | forward line => exact ⟨hx.ran, hx.tasks⟩

/-- As long as nobody is answered, a request for debugging has its follow-up pending. -/
theorem cancelling_run {events : List Event}
    (hcalls : ∀ c ∈ madeCalls events, c = .debug project configuration f ∨ c = .cancelAll)
    (hopen : ∀ (place : Nat) (answer : Answer),
      (run h { session := s } events).calls[place]? ≠ some (.inl answer)) :
    Cancelling s f (run h { session := s } events) := by
  induction events using List.reverseRecOn with
  | nil => exact ⟨rfl, fun _ _ hcall => by cases hcall⟩
  | append_singleton events e ih =>
    rw [run_concat] at hopen ⊢
    have hbefore : Cancelling s f (run h { session := s } events) := by
      refine ih (fun c hc => hcalls c ?_) fun place answer hcall =>
        hopen place answer (answered_next hcall e)
      rw [madeCalls_append]
      exact List.mem_append_left _ hc
    refine hbefore.next (fun c hc => hcalls c (mem_madeCalls.2 ?_)) hopen
    rw [hc]
    exact List.mem_append_right _ List.mem_cons_self

/-! ## Once the cancellation waits for the process -/

/-- Where a request for debugging, made at one place, and a cancellation, made at another, have got
to. -/
inductive CancelStage (f : FollowUp) (completion : Completion) (d k : Nat) (x : Interleaving) :
    Prop where
  /-- Both calls wait, and the follow-up is pending. -/
  | waiting (hd : x.calls[d]? = some (.inr (.unitRun completion)))
      (hk : ∃ sweep, x.calls[k]? = some (.inr (.cancelAll sweep)))
      (hlifecycle : x.lifecycle = { phase := .running, pending := some f, success := true })
      (hran : f.label ∉ x.ran)
  /-- Everything was cancelled, and the follow-up dropped. -/
  | cancelled (hd : x.calls[d]? = some (.inr (.unitRun completion)))
      (hk : ∃ answer, x.calls[k]? = some (.inl answer))
      (hpending : x.lifecycle.pending = none) (hran : f.label ∉ x.ran)
  /-- The request for debugging was answered. -/
  | answered (hd : ∃ state fired, x.calls[d]? = some (.inl (.outcome (.completed state fired))) ∧
        (fired = true ↔ f.label ∈ x.ran))
      (hk : ∀ task, x.calls[k]? = some (.inr task) → ∃ sweep, task = .cancelAll sweep)

/-- The request for debugging can report a success, and the cancellation has not ended. -/
structure Due (completion : Completion) (d k : Nat) (x : Interleaving) : Prop where
  debug : x.calls[d]? = some (.inr (.unitRun completion))
  cancel : ∃ task, x.calls[k]? = some (.inr task)
  exited : x.processes.stateAt completion.process = .exited (some 0)

variable {completion : Completion} {d k : Nat}

/-- How far the calls have got is seen from the calls, the lifecycle and what ran. -/
theorem CancelStage.congr (hx : CancelStage f completion d k x) {y : Interleaving}
    (hcalls : y.calls = x.calls) (hlifecycle : y.lifecycle = x.lifecycle) (hran : y.ran = x.ran) :
    CancelStage f completion d k y := by
  cases hx with
  | waiting hd hk hpending hnotRan =>
    exact .waiting (hcalls ▸ hd) (hcalls ▸ hk) (hlifecycle.trans hpending) (hran ▸ hnotRan)
  | cancelled hd hk hpending hnotRan =>
    exact .cancelled (hcalls ▸ hd) (hcalls ▸ hk) (hlifecycle ▸ hpending) (hran ▸ hnotRan)
  | answered hd hk => exact .answered (hcalls ▸ hran ▸ hd) (hcalls ▸ hk)

theorem CancelStage.cancel_task (hx : CancelStage f completion d k x) {task : Task}
    (htask : x.calls[k]? = some (.inr task)) : ∃ sweep, task = .cancelAll sweep := by
  cases hx with
  | waiting _ hk =>
    obtain ⟨sweep, hk⟩ := hk
    cases hk.symm.trans htask
    exact ⟨sweep, rfl⟩
  | cancelled _ hk =>
    obtain ⟨_, hk⟩ := hk
    cases hk.symm.trans htask
  | answered _ hk => exact hk task htask

theorem Due.isReleased (hdue : Due completion d k x) :
    x.processes.isReleased completion.process = true := by
  rw [Processes.isReleased, hdue.exited]
  rfl

/-- A request whose follow-up is due does go on. -/
theorem Due.next_ne (hdue : Due completion d k x) : x.next h (.resume d) ≠ x := by
  intro heq
  have hnew := getElem?_calls_resume (h := h) hdue.debug hdue.isReleased
  rw [heq, hdue.debug] at hnew
  cases hnew

/-- The request for debugging was answered without having run its follow-up. -/
theorem answered_of_not_due {y : Interleaving} {state : ProcessState}
    (hd : y.calls[d]? = some (.inl (.outcome (.completed state false))))
    (hk : ∀ task, y.calls[k]? = some (.inr task) → ∃ sweep, task = .cancelAll sweep)
    (hran : y.ran = x.ran) (hnotRan : f.label ∉ x.ran) (hnotDue : ¬ Due completion d k x) :
    CancelStage f completion d k y ∧
      (f.label ∈ y.ran ↔ f.label ∈ x.ran ∨ Due completion d k x) := by
  rw [← hran] at hnotRan
  refine ⟨.answered ⟨state, false, hd, iff_of_false Bool.false_ne_true hnotRan⟩ hk, ?_⟩
  exact iff_of_false hnotRan (not_or.2 ⟨hran ▸ hnotRan, hnotDue⟩)

/-- The request for debugging goes on. -/
theorem CancelStage.next_debug (hx : CancelStage f completion d k x) (hdk : d ≠ k) :
    CancelStage f completion d k (x.next h (.resume d)) ∧
      (f.label ∈ (x.next h (.resume d)).ran ↔ f.label ∈ x.ran ∨ Due completion d k x) := by
  obtain heq | ⟨task, htask, hreleased, heq⟩ := next_resume_cases h x d
  · have hnot : ¬ Due completion d k x := fun hdue => hdue.next_ne heq
    rw [heq]
    exact ⟨hx, (or_iff_left hnot).symm⟩
  · have hnew := getElem?_calls_resume (h := h) htask hreleased
    have hcancel : ∀ task, (x.next h (.resume d)).calls[k]? = some (.inr task) →
        ∃ sweep, task = .cancelAll sweep := fun task htask =>
      hx.cancel_task ((getElem?_calls_resume_ne hdk).symm.trans htask)
    have hran : (x.next h (.resume d)).ran = (x.session.resume h task).1.engine.ran := by
      rw [heq]
      rfl
    cases hx with
    | waiting hd hk hlifecycle hnotRan =>
      obtain ⟨sweep, hk⟩ := hk
      cases hd.symm.trans htask
      obtain ⟨f', hpending, hsuccess, hresumed, hanswer⟩ | ⟨hnot, hresumed, hanswer⟩ :=
        Session.resume_unitRun_cases h x.session completion
      -- The process was a success, so the pending follow-up has run.
      · cases (congrArg Lifecycle.pending hlifecycle).symm.trans hpending
        have hmem : f.label ∈ (x.next h (.resume d)).ran := by
          rw [hran, hresumed]
          exact List.mem_append_right _ List.mem_cons_self
        have hdue : Due completion d k x := ⟨hd, ⟨_, hk⟩, ProcessState.isSuccess_iff.1 hsuccess⟩
        refine ⟨.answered ⟨_, true, hnew.trans (congrArg some hanswer), ?_⟩ hcancel, ?_⟩
        · exact iff_of_true rfl hmem
        · exact iff_of_true hmem (.inr hdue)
      -- Otherwise only the process can be the reason, as nothing else has failed.
      · refine answered_of_not_due (hnew.trans (congrArg some hanswer)) hcancel
          (hran.trans hresumed) hnotRan fun hdue => ?_
        obtain hnone | hfailed | hfailed := hnot
        · cases (congrArg Lifecycle.pending hlifecycle).symm.trans hnone
        · cases (congrArg Lifecycle.success hlifecycle).symm.trans hfailed
        · cases (ProcessState.isSuccess_iff.2 hdue.exited).symm.trans hfailed
    | cancelled hd hk hpending hnotRan =>
      obtain ⟨answer, hk⟩ := hk
      cases hd.symm.trans htask
      obtain ⟨f', hpending', _⟩ | ⟨_, hresumed, hanswer⟩ :=
        Session.resume_unitRun_cases h x.session completion
      · cases hpending.symm.trans hpending'
      · refine answered_of_not_due (hnew.trans (congrArg some hanswer)) hcancel
          (hran.trans hresumed) hnotRan fun hdue => ?_
        obtain ⟨_, htask⟩ := hdue.cancel
        cases hk.symm.trans htask
    | answered hd =>
      obtain ⟨_, _, hd, _⟩ := hd
      cases hd.symm.trans htask

/-- The cancellation goes on. -/
theorem CancelStage.next_cancel (hx : CancelStage f completion d k x) (hdk : d ≠ k) :
    CancelStage f completion d k (x.next h (.resume k)) ∧
      (x.next h (.resume k)).ran = x.ran := by
  obtain heq | ⟨task, htask, hreleased, heq⟩ := next_resume_cases h x k
  · rw [heq]
    exact ⟨hx, rfl⟩
  · obtain ⟨sweep, rfl⟩ := hx.cancel_task htask
    have hnew := getElem?_calls_resume (h := h) htask hreleased
    have hother : (x.next h (.resume k)).calls[d]? = x.calls[d]? :=
      getElem?_calls_resume_ne hdk.symm
    obtain ⟨hran, hcase⟩ :=
      x.session.afterSweep_cancelAll_cases (sweep.killed + 1) sweep.rest rfl
    have hran' : (x.next h (.resume k)).ran = x.ran := by
      rw [heq]
      exact hran
    refine ⟨?_, hran'⟩
    cases hx with
    | waiting hd hk hlifecycle hnotRan =>
      obtain ⟨count, hanswer, hcancelled⟩ | ⟨sweep', hwait, hsame⟩ := hcase
      · refine .cancelled (hother.trans hd) ⟨_, hnew.trans (congrArg some hanswer)⟩ ?_
          (hran' ▸ hnotRan)
        rw [heq]
        exact congrArg Lifecycle.pending hcancelled
      · refine .waiting (hother.trans hd) ⟨_, hnew.trans (congrArg some hwait)⟩ ?_ (hran' ▸ hnotRan)
        rw [heq]
        exact hsame.trans hlifecycle
    | cancelled _ hk =>
      obtain ⟨_, hk⟩ := hk
      cases hk.symm.trans htask
    | answered hd _ =>
      obtain ⟨state, fired, hd, hfired⟩ := hd
      refine .answered ⟨state, fired, hother.trans hd, hran' ▸ hfired⟩ fun task htask' => ?_
      obtain ⟨count, hanswer, _⟩ | ⟨sweep', hwait, _⟩ := hcase
      · cases (hnew.trans (congrArg some hanswer)).symm.trans htask'
      · cases (hnew.trans (congrArg some hwait)).symm.trans htask'
        exact ⟨_, rfl⟩

/-- Every event but the making of a call. -/
theorem CancelStage.next (hx : CancelStage f completion d k x) (hdk : d ≠ k)
    (hplaces : ∀ place < x.calls.length, place = d ∨ place = k) {e : Event}
    (he : e.call? = none) :
    CancelStage f completion d k (x.next h e) ∧
      (f.label ∈ (x.next h e).ran ↔
        f.label ∈ x.ran ∨ e = .resume d ∧ Due completion d k x) := by
  have hother : ∀ {e : Event}, e ≠ .resume d → (x.next h e).ran = x.ran →
      (f.label ∈ (x.next h e).ran ↔ f.label ∈ x.ran ∨ e = .resume d ∧ Due completion d k x) := by
    intro e hne hran
    rw [hran]
    exact (or_iff_left fun hdue => hne hdue.1).symm
  cases e with
  | call c => cases he
  | resume place =>
    by_cases hplace : place < x.calls.length
    · obtain rfl | rfl := hplaces place hplace
      · simpa using hx.next_debug hdk
      · obtain ⟨hstage, hran⟩ := hx.next_cancel hdk
        exact ⟨hstage, hother (fun heq => hdk (Event.resume.inj heq).symm) hran⟩
    -- Nothing was called at the place.
    · obtain heq | ⟨task, htask, _⟩ := next_resume_cases h x place
      · refine ⟨hx.congr (congrArg calls heq) (congrArg lifecycle heq) (congrArg ran heq),
          hother (fun hd => hplace ?_) (congrArg ran heq)⟩
        cases hd
        cases hx with
        | waiting hd | cancelled hd => exact (List.getElem?_eq_some_iff.1 hd).1
        | answered hd =>
          obtain ⟨_, _, hd, _⟩ := hd
          exact (List.getElem?_eq_some_iff.1 hd).1
      · exact absurd (List.getElem?_eq_some_iff.1 htask).1 hplace
  | supervise process step => exact ⟨hx.congr rfl rfl rfl, hother nofun rfl⟩
  | forward line => exact ⟨hx.congr rfl rfl rfl, hother nofun rfl⟩

theorem cancelStage_run (hx : CancelStage f completion d k x) (hdk : d ≠ k)
    (hplaces : ∀ place < x.calls.length, place = d ∨ place = k) {events : List Event}
    (hevents : madeCalls events = []) :
    CancelStage f completion d k (x.run h events) ∧
      (f.label ∈ (x.run h events).ran ↔
        f.label ∈ x.ran ∨ Occurs h (fun y e => e = .resume d ∧ Due completion d k y) x events) := by
  induction events using List.reverseRecOn with
  | nil => exact ⟨hx, (or_iff_left not_occurs_nil).symm⟩
  | append_singleton events e ih =>
    rw [madeCalls_append, List.append_eq_nil_iff] at hevents
    obtain ⟨hstage, hran⟩ := ih hevents.1
    have he : e.call? = none := by
      cases e with
      | call c => cases hevents.2
      | _ => rfl
    have hplaces' : ∀ place < (x.run h events).calls.length, place = d ∨ place = k := by
      rw [length_calls_run, hevents.1]
      exact hplaces
    obtain ⟨hstage', hran'⟩ := hstage.next hdk hplaces' he
    rw [run_concat]
    exact ⟨hstage', by rw [hran', hran, occurs_concat, or_assoc]⟩

/-- A process whose follow-up was due stays one that exited with code zero. -/
theorem stateAt_of_occurs_due {events : List Event}
    (hoccurs : Occurs h (fun y e => e = .resume d ∧ Due completion d k y) x events) :
    (x.run h events).processes.stateAt completion.process = .exited (some 0) := by
  obtain ⟨before, _, after, rfl, rfl, hdue⟩ := occurs_iff_exists.1 hoccurs
  rw [run_append, (keeps_run h _ (.resume d :: after)).stateAt_eq hdue.isReleased]
  exact hdue.exited

/-- When both calls wait, and no other calls were made, the follow-up is pending and has not run. -/
theorem cancelStage_of_waiting {before : List Event} {sweep : Processes.Sweep}
    (hran : f.label ∉ s.engine.ran)
    (hcalls : ∀ c ∈ madeCalls before, c = .debug project configuration f ∨ c = .cancelAll)
    (hplaces : ∀ place < (run h { session := s } before).calls.length, place = d ∨ place = k)
    (hdebug : (run h { session := s } before).calls[d]? = some (.inr (.unitRun completion)))
    (hcancel : (run h { session := s } before).calls[k]? = some (.inr (.cancelAll sweep))) :
    CancelStage f completion d k (run h { session := s } before) ∧
      f.label ∉ (run h { session := s } before).ran := by
  have hopen : ∀ (place : Nat) (answer : Answer),
      (run h { session := s } before).calls[place]? ≠ some (.inl answer) := by
    intro place answer hcall
    obtain rfl | rfl := hplaces place (List.getElem?_eq_some_iff.1 hcall).1
    · cases hdebug.symm.trans hcall
    · cases hcancel.symm.trans hcall
  have hcancelling := cancelling_run hcalls hopen
  have hnotRan : f.label ∉ (run h { session := s } before).ran := by
    rw [hcancelling.ran]
    exact hran
  obtain ⟨_, hsweep⟩ | ⟨_, hlifecycle⟩ := hcancelling.tasks d _ hdebug
  · cases hsweep
  · exact ⟨.waiting hdebug ⟨sweep, hcancel⟩ hlifecycle hnotRan, hnotRan⟩

/-- When a cancellation meets a request for debugging that waits for its process, the request's
follow-up runs exactly if the request goes on before the cancellation has ended, and its process had
exited with code zero; the answer to the request says whether it ran. A process that was killed runs
none. -/
theorem ran_iff_of_cancelled (before after : List Event) (hran : f.label ∉ s.engine.ran)
    (hcalls : (madeCalls (before ++ after)).Perm [.debug project configuration f, .cancelAll])
    {sweep : Processes.Sweep}
    (hdebug : (run h { session := s } before).calls[d]? = some (.inr (.unitRun completion)))
    (hcancel : (run h { session := s } before).calls[k]? = some (.inr (.cancelAll sweep))) :
    let x := run h { session := s } (before ++ after)
    (f.label ∈ x.ran ↔
        Occurs h (fun y e => e = .resume d ∧ Due completion d k y)
          (run h { session := s } before) after) ∧
      (∀ state fired, x.calls[d]? = some (.inl (.outcome (.completed state fired))) →
        (fired = true ↔ f.label ∈ x.ran)) ∧
      (x.processes.stateAt completion.process = .killed → f.label ∉ x.ran) := by
  rw [madeCalls_append] at hcalls
  have hdk : d ≠ k := fun heq => by
    rw [heq, hcancel] at hdebug
    cases hdebug
  -- Both calls were made before, so no call is made afterwards.
  have hd := (List.getElem?_eq_some_iff.1 hdebug).1
  have hk := (List.getElem?_eq_some_iff.1 hcancel).1
  have hlength := length_calls_run (h := h) (x := { session := s }) before
  have htwo := hcalls.length_eq
  simp only [List.length_append, List.length_cons, List.length_nil] at htwo hlength
  have hafter : madeCalls after = [] := List.eq_nil_of_length_eq_zero (by omega)
  have hplaces : ∀ place < (run h { session := s } before).calls.length,
      place = d ∨ place = k := by
    intro place hplace
    omega
  have hmade : ∀ c ∈ madeCalls before, c = .debug project configuration f ∨ c = .cancelAll := by
    intro c hc
    simpa using hcalls.subset (List.mem_append_left _ hc)
  obtain ⟨hwaiting, hnotRan⟩ := cancelStage_of_waiting hran hmade hplaces hdebug hcancel
  obtain ⟨hstage, hiff⟩ := cancelStage_run hwaiting hdk hplaces hafter
  rw [or_iff_right hnotRan] at hiff
  rw [run_append]
  refine ⟨hiff, fun state fired hanswer => ?_, fun hkilled hmem => ?_⟩
  · cases hstage with
    | waiting hd | cancelled hd => cases hd.symm.trans hanswer
    | answered hd =>
      obtain ⟨state', fired', hd, hfired⟩ := hd
      cases hd.symm.trans hanswer
      exact hfired
  · cases hkilled.symm.trans (stateAt_of_occurs_due (hiff.1 hmem))

/-- The process ends by itself and is cancelled while its output is waited for; the request goes on
first. -/
theorem ran_iff_of_cancelled_sample :
    let before : List Event :=
      [.call (.debug "Game" "Debug" { label := "start" }), .supervise 0 (.observeExit (some 0)),
        .call .cancelAll]
    let after : List Event := [.supervise 0 .drained, .resume 0, .resume 1]
    let x := run sampleHost (fresh sampleFiles) before
    x.calls = [.inr (.unitRun { unit := "Game", process := 0 }),
        .inr (.cancelAll { process := 0, rest := [], killed := 0 })] ∧
      ("start" ∈ (x.run sampleHost after).ran ↔
        Occurs sampleHost
          (fun y e => e = .resume 0 ∧ Due { unit := "Game", process := 0 } 0 1 y) x after) := by
  intro before after x
  have hcalls : x.calls = [.inr (.unitRun { unit := "Game", process := 0 }),
      .inr (.cancelAll { process := 0, rest := [], killed := 0 })] := by decide +kernel
  have hiff := ran_iff_of_cancelled before after (h := sampleHost)
    (s := (fresh sampleFiles).session) (f := { label := "start" }) (by decide) (.refl _)
    (congrArg (·[0]?) hcalls) (congrArg (·[1]?) hcalls)
  rw [run_append] at hiff
  exact ⟨hcalls, hiff.1⟩

/-- A cancellation counts the only process that there is, and its follow-up runs all the same. -/
theorem ran_of_counted :
    let x := run sampleHost (fresh sampleFiles)
      [.call (.debug "Game" "Debug" { label := "start" }), .supervise 0 (.observeExit (some 0)),
        .call .cancelAll, .supervise 0 .drained, .resume 0, .resume 1]
    x.processes.map BuildProcess.channel = [.startup] ∧
      x.calls =
        [.inl (.outcome (.completed (.exited (some 0)) true)), .inl (.count 1)] ∧
      x.ran = ["start"] := by
  decide +kernel

end Interleaving

end SoloBuild
