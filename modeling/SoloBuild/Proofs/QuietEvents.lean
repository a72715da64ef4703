import SoloBuild.Proofs.KillRequests

/-!
# When nobody else acts

A call that was made last has a session for itself as long as no other call is made, and none goes on
that would act: then supervisors and readers take their steps, and calls that have waited for a
process report that it has ended. All that happens to the processes is what their supervisors do, so
a run with the call can be compared with the run without it.

## Key results

- `SameBeside`: the processes on other channels are the same
- `Undisturbed.next`: what happens meanwhile leaves the processes to their supervisors
- `without_run`: what happens when the call is not made
-/

namespace SoloBuild

/-- The call that waits only reports the end of its process, and asks for nothing more then. -/
def Task.reports : Task → Bool
  | .kill _ | .unitRun _ | .interceptRun _ => true
  | .killAll _ | .cancelAll _ | .hostBegin _ | .interceptKill .. => false

namespace Processes

variable {ps ps' ps'' : Processes} {c : Channel} {i : Nat}

/-! ## Processes on other channels -/

/-- On other channels there are the same processes, at the same places. -/
def SameBeside (ps ps' : Processes) (c : Channel) : Prop :=
  ∀ (i : Nat) (p : BuildProcess), p.channel ≠ c → (ps'[i]? = some p ↔ ps[i]? = some p)

theorem SameBeside.refl (ps : Processes) (c : Channel) : SameBeside ps ps c := fun _ _ _ => .rfl

theorem SameBeside.trans (h : SameBeside ps ps' c) (h' : SameBeside ps' ps'' c) :
    SameBeside ps ps'' c := fun i p hp => (h' i p hp).trans (h i p hp)

theorem sameBeside_askToEnd {p : BuildProcess} (hp : ps[i]? = some p) (hc : p.channel = c) :
    SameBeside ps (ps.supervise i fun p => { p with killRequested := true }) c := by
  intro j q hq
  rw [getElem?_supervise]
  by_cases hi : i = j
  -- The process that is asked to end is on the channel.
  · subst hi
    rw [hp]
    constructor
    · rintro ⟨_, ⟨⟩, rfl⟩
      rw [if_pos rfl] at hq
      exact absurd hc hq
    · rintro ⟨⟩
      exact absurd hc hq
  · simp [hi]

theorem sameBeside_concat {p : BuildProcess} (hc : p.channel = c) :
    SameBeside ps (ps ++ [p]) c := by
  intro j q hq
  constructor
  · intro hj
    obtain hj | ⟨_, rfl⟩ := getElem?_concat_cases hj
    · exact hj
    · exact absurd hc hq
  · intro hj
    exact List.getElem?_append_left (List.getElem?_eq_some_iff.1 hj).1 ▸ hj

/-! ## Requests to end a process -/

/-- A call that asks for no end leaves the requests as they were. -/
theorem Change.isAsked_of_none (h : ps.Change ps' none) (hi : ps'.IsAsked i) : ps.IsAsked i := by
  cases h with
  | same => exact hi
  | start command run =>
    obtain ⟨p, hp, hasked⟩ := hi
    obtain hp | ⟨_, rfl⟩ := getElem?_concat_cases hp
    · exact ⟨p, hp, hasked⟩
    · cases hasked

/-! ## What supervisors do -/

/-- The processes after what their supervisors do in an event. -/
def supervised (ps : Processes) : Event → Processes
  | .supervise i step => ps.supervise i step.apply
  | .call _ | .resume _ | .forward _ => ps

@[simp] theorem length_supervised (ps : Processes) (e : Event) :
    (ps.supervised e).length = ps.length := by
  cases e with
  | supervise => exact length_supervise ps _ _
  | call | resume | forward => rfl

/-- The supervisors take the same step on both sides. -/
theorem SameBeside.supervised (h : SameBeside ps ps' c) (e : Event) :
    SameBeside (ps.supervised e) (ps'.supervised e) c := by
  cases e with
  | supervise i step =>
    intro j p hp
    rw [Processes.supervised, Processes.supervised, getElem?_supervise, getElem?_supervise]
    refine exists_congr fun q => and_congr_left fun hpq => h j q fun hq => hp ?_
    rw [hpq]
    split
    · exact (BuildProcess.keeps_apply step q).channel.trans hq
    · exact hq
  | call | resume | forward => exact h

/-- No supervisor asks for an end. -/
theorem isAsked_of_supervised {e : Event} (hi : (ps.supervised e).IsAsked i) : ps.IsAsked i := by
  cases e with
  | supervise j step =>
    obtain ⟨_, hp', hasked⟩ := hi
    obtain ⟨p, hp, rfl⟩ := getElem?_supervise.1 hp'
    refine ⟨p, hp, ?_⟩
    split at hasked
    · rwa [SupervisorStep.killRequested_apply] at hasked
    · exact hasked
  | call | resume | forward => exact hi

end Processes

/-- A call that only reports goes on to its answer, and does nothing to the processes. -/
theorem Session.resume_of_reports (h : Host) (s : Session) {task : Task}
    (htask : task.reports = true) :
    (s.resume h task).1.engine.processes = s.engine.processes ∧
      ∃ answer, (s.resume h task).2 = .inl answer := by
  cases task with
  | kill => exact ⟨rfl, _, rfl⟩
  | unitRun completion => exact ⟨Engine.processes_complete _ _, _, rfl⟩
  | interceptRun completion => exact ⟨Engine.processes_complete _ _, _, rfl⟩
  | killAll | cancelAll | hostBegin | interceptKill => cases htask

namespace Interleaving

open Processes

variable {h : Host} {x y z : Interleaving} {e : Event} {place : Nat}

/-! ## What else may happen -/

/-- Nobody but the call that is made next acts in this event: that call goes on, or one that only
reports the end of its process, or a supervisor or a reader takes a step. -/
def isQuiet (x : Interleaving) : Event → Bool
  | .call _ => false
  | .resume place =>
    place == x.calls.length ||
      match x.calls[place]? with
      | some (.inr task) => task.reports
      | _ => false
  | .supervise .. | .forward _ => true

theorem isQuiet_resume_iff :
    x.isQuiet (.resume place) = true ↔
      place = x.calls.length ∨
        ∃ task, x.calls[place]? = some (.inr task) ∧ task.reports = true := by
  rw [isQuiet, Bool.or_eq_true, beq_iff_eq]
  refine or_congr_right ?_
  split
  · next task hcall => simp [hcall]
  · next hnot => exact ⟨nofun, fun ⟨task, hcall, _⟩ => absurd hcall (hnot task)⟩

/-- The calls made before a moment have at most been answered since. -/
def Undisturbed (x y : Interleaving) : Prop :=
  ∀ other < x.calls.length, y.calls[other]? = x.calls[other]? ∨
    ∃ answer, y.calls[other]? = some (.inl answer)

theorem Undisturbed.refl (x : Interleaving) : x.Undisturbed x := fun _ _ => .inl rfl

theorem undisturbed_call (h : Host) (x : Interleaving) (c : Call) :
    x.Undisturbed (x.next h (.call c)) := fun _ hother =>
  .inl (getElem?_calls_next hother nofun)

/-- What a call of before that only reports does when it goes on. -/
theorem Undisturbed.resume (hy : x.Undisturbed y) (he : x.isQuiet (.resume place) = true)
    (hplace : place ≠ x.calls.length) :
    (y.next h (.resume place)).processes = y.processes ∧
      x.Undisturbed (y.next h (.resume place)) := by
  obtain hnew | ⟨task, hcall, hreports⟩ := isQuiet_resume_iff.1 he
  · exact absurd hnew hplace
  · have hlt := (List.getElem?_eq_some_iff.1 hcall).1
    obtain heq | ⟨task', htask', hreleased, heq⟩ := next_resume_cases h y place
    · rw [heq]
      exact ⟨rfl, hy⟩
    · have hsame : y.calls[place]? = x.calls[place]? := by
        obtain hsame | ⟨_, hended⟩ := hy place hlt
        · exact hsame
        · cases hended.symm.trans htask'
      rw [hsame, hcall] at htask'
      cases htask'
      obtain ⟨hprocesses, answer, hanswer⟩ :=
        Session.resume_of_reports h y.session hreports
      refine ⟨(congrArg processes heq).trans hprocesses, fun other hother => ?_⟩
      by_cases hne : place = other
      · subst hne
        exact .inr ⟨answer, by
          rw [getElem?_calls_resume (hsame.trans hcall) hreleased, hanswer]⟩
      · rw [getElem?_calls_resume_ne hne]
        exact hy other hother

/-- What happens meanwhile does to the processes what supervisors do, and at most answers the calls
of before. -/
theorem Undisturbed.next (hy : x.Undisturbed y) (he : x.isQuiet e = true)
    (hne : e ≠ .resume x.calls.length) :
    x.Undisturbed (y.next h e) ∧ (y.next h e).processes = y.processes.supervised e := by
  cases e with
  | call c => cases he
  | resume place =>
    obtain ⟨hprocesses, hnext⟩ := hy.resume (h := h) he fun hplace => hne (hplace ▸ rfl)
    exact ⟨hnext, hprocesses⟩
  | supervise i step => exact ⟨hy, rfl⟩
  | forward line => exact ⟨hy, rfl⟩

/-- So does what happens after the call has been answered. -/
theorem Undisturbed.next_of_answered (hy : x.Undisturbed y) (he : x.isQuiet e = true)
    {answer : Answer} (hcall : y.calls[x.calls.length]? = some (.inl answer)) :
    x.Undisturbed (y.next h e) ∧ (y.next h e).processes = y.processes.supervised e := by
  by_cases hne : e = .resume x.calls.length
  · subst hne
    rw [Interleaving.next, hcall]
    exact ⟨hy, rfl⟩
  · exact hy.next he hne

/-! ## Without the call -/

/-- What has happened since, without the call: no call was made, no process was started, and none
was asked to end. -/
structure Without (x z : Interleaving) : Prop where
  undisturbed : x.Undisturbed z
  calls : z.calls.length = x.calls.length
  processes : z.processes.length = x.processes.length
  asked : ∀ i, z.processes.IsAsked i → x.processes.IsAsked i

theorem Without.resume (hz : x.Without z) : z.next h (.resume x.calls.length) = z := by
  rw [Interleaving.next, List.getElem?_eq_none (Nat.le_of_eq hz.calls)]

theorem Without.processes_next (hz : x.Without z) (he : x.isQuiet e = true) :
    (z.next h e).processes = z.processes.supervised e := by
  by_cases hne : e = .resume x.calls.length
  · rw [hne, hz.resume]
    rfl
  · exact (hz.undisturbed.next he hne).2

theorem Without.next (hz : x.Without z) (he : x.isQuiet e = true) : x.Without (z.next h e) := by
  refine ⟨?_, ?_, ?_, fun i hi => hz.asked i ?_⟩
  · by_cases hne : e = .resume x.calls.length
    · rw [hne, hz.resume]
      exact hz.undisturbed
    · exact (hz.undisturbed.next he hne).1
  · rw [length_calls_next, hz.calls]
    cases e with
    | call => cases he
    | resume | supervise | forward => rfl
  · rw [hz.processes_next he, length_supervised, hz.processes]
  · rw [hz.processes_next he] at hi
    exact isAsked_of_supervised hi

theorem Without.refl (x : Interleaving) : x.Without x := ⟨.refl x, rfl, rfl, fun _ => id⟩

theorem without_run {events : List Event} (hquiet : ∀ e ∈ events, x.isQuiet e = true) :
    x.Without (x.run h events) :=
  run_invariant (fun _ e he hy => hy.next (hquiet e he)) (.refl x)

end Interleaving

end SoloBuild
