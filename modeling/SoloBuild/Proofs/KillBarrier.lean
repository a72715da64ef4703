import SoloBuild.Proofs.KillRequests

/-!
# Whether a kill is a barrier

A call that kills goes over its channels, and waits on each for the process that it has asked to
end. It passes over a process that somebody else has asked already, so when it is answered that
process may still run: then the one who asked first still waits. That is the only way, as this
module shows: when a killing call is answered, each process that was on its channels when it was
made is released, or another call still waits for its end.

## Key results

- `Session.swept_begin`, `Session.swept_resume`: how far a killing call gets before it ends or waits
- `Covered.next`: what a killing call still has to do for a process that it covers
- `released_of_answered`: a killing call is a barrier, but for processes that others wait for
- `answered_before_release`: the second of two kills is answered while the process runs, and so is
  the begin of a host build
-/

namespace SoloBuild

/-- The channels that a call kills. -/
def Call.kills : Call → List Channel
  | .kill channel => [channel]
  | .killAll | .cancelAll | .buildBegin => Channel.all
  | _ => []

/-- The channels that a waiting call is still going to kill. -/
def Task.rest : Task → List Channel
  | .killAll sweep | .cancelAll sweep | .hostBegin sweep => sweep.rest
  | .kill _ | .unitRun _ | .interceptKill .. | .interceptRun _ => []

/-- How far a call that kills some channels has got: it has found nobody to ask on any of them, or
it waits for the first process that it could ask. -/
inductive Swept (ps : Processes) (cs : List Channel) : Progress → Prop
  | ended {answer : Answer} (none : ps.NoneKillable cs) : Swept ps cs (.inl answer)
  | waits {passed : List Channel} {c : Channel} {p : BuildProcess} {i : Nat} {task : Task}
      (channels : cs = passed ++ c :: task.rest) (none : ps.NoneKillable passed)
      (killable : ps.Killable c p i) (asked : task.asked? = some i) : Swept ps cs (.inr task)

namespace Session

variable (h : Host) (s : Session)

theorem swept_afterSweep (killed : Nat) (cs : List Channel) {wait : Processes.Sweep → Task}
    {finish : Session → Nat → Session × Answer}
    (hasked : ∀ sweep, (wait sweep).asked? = some sweep.process)
    (hrest : ∀ sweep, (wait sweep).rest = sweep.rest) :
    Swept s.engine.processes cs
      (s.afterSweep (s.engine.processes.sweep killed cs) wait finish).2 := by
  obtain ⟨heq, hnone⟩ | ⟨passed, c, p, i, rest, hcs, hpassed, hkillable, heq⟩ :=
    afterSweep_cases s killed cs wait finish
  · rw [heq]
    exact .ended hnone
  · rw [heq]
    exact .waits (by rw [hrest]; exact hcs) hpassed hkillable (hasked _)

/-- A call goes over all channels that it kills, up to the first process that it can ask to end. -/
theorem swept_begin {c : Call} (hkills : c.kills ≠ []) :
    Swept s.engine.processes c.kills (s.begin h c).2 := by
  cases c with
  | kill channel =>
    obtain ⟨heq, hnone⟩ | ⟨p, i, hkillable, heq⟩ := begin_kill_cases h s channel
    · rw [heq]
      exact .ended (List.forall_mem_singleton.2 hnone)
    · rw [heq]
      exact .waits (List.nil_append _).symm nofun hkillable rfl
  | killAll | cancelAll => exact swept_afterSweep s 0 Channel.all (fun _ => rfl) fun _ => rfl
  | buildBegin =>
    exact swept_afterSweep { s with hostBuildRunning := true } 0 Channel.all (fun _ => rfl)
      fun _ => rfl
  | _ => exact absurd rfl hkills

/-- A call that goes on goes over the channels that were left. -/
theorem swept_resume {task : Task} (hrest : task.rest ≠ []) :
    Swept s.engine.processes task.rest (s.resume h task).2 := by
  cases task with
  | killAll sweep | cancelAll sweep | hostBegin sweep =>
    exact swept_afterSweep s _ sweep.rest (fun _ => rfl) fun _ => rfl
  | kill | unitRun | interceptKill | interceptRun => exact absurd rfl hrest

end Session

namespace Interleaving

variable {h : Host} {x : Interleaving} {e : Event} {place i : Nat} {c : Channel}
  {p : BuildProcess}

/-- The process is released, or a call other than the one at the place waits for its end. -/
def Discharged (x : Interleaving) (place i : Nat) : Prop :=
  x.processes.isReleased i = true ∨ ∃ other, other ≠ place ∧ x.awaits? other = some i

/-- Whoever waits for the end of a process waits until it is released. -/
theorem awaits?_next (hwaits : x.awaits? place = some i) :
    x.processes.isReleased i = true ∨ (x.next h e).awaits? place = some i := by
  cases moves_next h x e with
  | idle _ calls | supervise _ _ _ calls =>
    exact .inr ((awaits?_congr (congrArg (·[place]?) calls)).trans hwaits)
  | carry other _ hy =>
    by_cases hplace : place = other
    · exact .inl (hy.isReleased (hplace ▸ hwaits))
    · exact .inr ((awaits?_congr (hy.others place hplace)).trans hwaits)

theorem Discharged.next (hs : x.Discharged place i) (e : Event) :
    (x.next h e).Discharged place i := by
  have hkeeps := keeps_next h x e
  obtain hreleased | ⟨other, hne, hwaits⟩ := hs
  · exact .inl (hkeeps.isReleased hreleased)
  · obtain hreleased | hwaits := awaits?_next (h := h) (e := e) hwaits
    · exact .inl (hkeeps.isReleased hreleased)
    · exact .inr ⟨other, hne, hwaits⟩

/-- Where a call finds nobody to ask for the end of a process, that is released or others wait. -/
theorem Accounted.discharged (hx : x.Accounted) (hp : x.processes[i]? = some p)
    (hnone : ∀ q j, ¬ x.processes.Killable p.channel q j)
    (hown : x.awaits? place = some i → x.processes.isReleased i = true) :
    x.Discharged place i := by
  cases hlive : p.isLive with
  | false => exact .inl (Processes.isReleased_iff.2 ⟨p, hp, hlive⟩)
  | true =>
    cases hasked : p.killRequested with
    | false => exact absurd ⟨hx.latest i p hp hlive, hlive, hasked⟩ (hnone p i)
    -- Somebody has asked for its end, and waits for it.
    | true =>
      obtain ⟨other, hwaits⟩ := hx.awaited i p hp hasked hlive
      by_cases hother : other = place
      · exact .inl (hown (hother ▸ hwaits))
      · exact .inr ⟨other, hother, hwaits⟩

/-- What a killing call still has to do for a process: nothing, or it waits for its end, or it is
going to come to its channel. -/
def Covered (x : Interleaving) (place i : Nat) (c : Channel) : Prop :=
  x.Discharged place i ∨ ∃ task, x.calls[place]? = some (.inr task) ∧
    (task.asked? = some i ∨ c ∈ task.rest)

/-- When a killing call is carried out, it covers the processes on its channels. -/
theorem Accounted.covered (hx : x.Accounted) {cs : List Channel} {progress : Progress}
    (hswept : Swept x.processes cs progress) (hcall : (x.next h e).calls[place]? = some progress)
    (hp : x.processes[i]? = some p) (hc : p.channel ∈ cs)
    (hown : x.awaits? place = some i → x.processes.isReleased i = true) :
    (x.next h e).Covered place i p.channel := by
  cases hswept with
  | ended hnone => exact .inl ((hx.discharged hp (hnone _ hc) hown).next e)
  | @waits passed c q j task channels hnone hkillable hasked =>
    subst channels
    rw [List.mem_append, List.mem_cons] at hc
    obtain hc | rfl | hc := hc
    · exact .inl ((hx.discharged hp (hnone _ hc) hown).next e)
    -- The live process of the channel is the one that was asked to end.
    · cases hlive : p.isLive with
      | false =>
        have hreleased := Processes.isReleased_iff.2 ⟨p, hp, hlive⟩
        exact .inl (.inl ((keeps_next h x e).isReleased hreleased))
      | true =>
        cases (hx.latest i p hp hlive).symm.trans hkillable.latest
        exact .inr ⟨task, hcall, .inl hasked⟩
    · exact .inr ⟨task, hcall, .inr hc⟩

theorem Covered.next (hx : x.Accounted) (hp : x.processes[i]? = some p)
    (hcovered : x.Covered place i p.channel) (e : Event) :
    (x.next h e).Covered place i p.channel := by
  obtain hdischarged | ⟨task, htask, hleft⟩ := hcovered
  · exact .inl (hdischarged.next e)
  · by_cases he : e = .resume place
    · subst he
      obtain heq | ⟨_, htask', hreleased, _⟩ := next_resume_cases h x place
      · rw [heq]
        exact .inr ⟨task, htask, hleft⟩
      · cases htask.symm.trans htask'
        -- The call goes on since the process that it waited for is released.
        have hown : x.awaits? place = some i → x.processes.isReleased i = true :=
          fun hwaits => process_of_awaits? htask hwaits ▸ hreleased
        obtain hasked | hrest := hleft
        · have hreleased := hown (awaits?_eq_some_iff.2 ⟨task, htask, hasked⟩)
          exact .inl (Discharged.next (.inl hreleased) (.resume place))
        · exact hx.covered (Session.swept_resume h x.session (List.ne_nil_of_mem hrest))
            (getElem?_calls_resume htask hreleased) hp hrest hown
    · refine .inr ⟨task, ?_, hleft⟩
      rw [getElem?_calls_next (List.getElem?_eq_some_iff.1 htask).1 he, htask]

theorem covered_run (hx : x.Accounted) (hp : x.processes[i]? = some p)
    (hcovered : x.Covered place i p.channel) (events : List Event) :
    (x.run h events).Covered place i p.channel := by
  induction events generalizing x p with
  | nil => exact hcovered
  | cons e events ih =>
    obtain ⟨p', hp', hkeeps⟩ := keeps_next h x e i p hp
    -- The process stays on its channel.
    have hnext := hcovered.next (h := h) hx hp e
    rw [← hkeeps.channel] at hnext ⊢
    rw [run_cons]
    exact ih (hx.next e) hp' hnext

/-- When a killing call is answered, each process that was on its channels when it was made is
released, or another call still waits for its end. -/
theorem released_of_answered (files : FileTree) (before after : List Event) {c : Call}
    {answer : Answer} (hp : (run h (fresh files) before).processes[i]? = some p)
    (hchannel : p.channel ∈ c.kills)
    (hanswer : (run h (fresh files) (before ++ .call c :: after)).calls[
      (madeCalls before).length]? = some (.inl answer)) :
    (run h (fresh files) (before ++ .call c :: after)).processes.isReleased i = true ∨
      ∃ other, other ≠ (madeCalls before).length ∧
        (run h (fresh files) (before ++ .call c :: after)).awaits? other = some i := by
  have hx := accounted_run (h := h) files before
  have hplace : (madeCalls before).length = (run h (fresh files) before).calls.length := by
    rw [length_calls_run]
    exact (Nat.zero_add _).symm
  rw [run_append, run_cons] at hanswer ⊢
  rw [hplace] at hanswer ⊢
  generalize run h (fresh files) before = x at hp hx hanswer ⊢
  have hcovered : (x.next h (.call c)).Covered x.calls.length i p.channel := by
    refine hx.covered (Session.swept_begin h x.session (List.ne_nil_of_mem hchannel))
      List.getElem?_concat_length hp hchannel fun hwaits => ?_
    -- Nobody waits yet at the place of the call.
    obtain ⟨_, hcall, _⟩ := awaits?_eq_some_iff.1 hwaits
    exact absurd (List.getElem?_eq_some_iff.1 hcall).1 (Nat.lt_irrefl _)
  obtain ⟨p', hp', hkeeps⟩ := keeps_next h x (.call c) i p hp
  rw [← hkeeps.channel] at hcovered
  obtain hdischarged | ⟨task, htask, _⟩ := covered_run (hx.next (.call c)) hp' hcovered after
  · exact hdischarged
  · cases hanswer.symm.trans htask

theorem released_of_answered_sample :
    let before : List Event := [.call (.debug "Game" "Debug" { label := "start" })]
    let after : List Event := [.supervise 0 .takeKill, .supervise 0 .release, .resume 1]
    let x := run sampleHost (fresh sampleFiles) before
    let y := run sampleHost (fresh sampleFiles) (before ++ .call .buildBegin :: after)
    (∃ p, x.processes[0]? = some p ∧ p.channel ∈ Call.kills .buildBegin ∧ p.isLive = true) ∧
      y.calls[1]? = some (.inl .nothing) ∧
      (y.processes.isReleased 0 = true ∨
        ∃ other, other ≠ (madeCalls before).length ∧ y.awaits? other = some 0) := by
  intro before after x y
  have hp : ∃ p, x.processes[0]? = some p ∧ p.isLive = true := by decide +kernel
  obtain ⟨p, hp, hlive⟩ := hp
  have hchannel : p.channel ∈ Call.kills .buildBegin := Channel.mem_all p.channel
  have hanswer : y.calls[1]? = some (.inl .nothing) := by decide +kernel
  exact ⟨⟨p, hp, hchannel, hlive⟩, hanswer,
    released_of_answered sampleFiles before after hp hchannel hanswer⟩

/-- While one kill waits for a process, a second one is answered although the process runs, and so
is a host build that begins: its build is under way beside the process. -/
theorem answered_before_release :
    let command : BuildCommand := { program := ⟨"build"⟩, args := [], workingDir := ⟨"/"⟩ }
    let x := run sampleHost (fresh sampleFiles)
      [.call (.start .selection command), .call (.kill .selection)]
    let killed := x.next sampleHost (.call (.kill .selection))
    let begun := x.next sampleHost (.call .buildBegin)
    x.processes.isLive .selection = true ∧ x.session.engine.lifecycle.phase = .idle ∧
      x.awaits? 1 = some 0 ∧
      killed.calls[2]? = some (.inl (.flag false)) ∧ killed.processes.stateAt 0 = .running ∧
      begun.calls[2]? = some (.inl .nothing) ∧ begun.processes.stateAt 0 = .running ∧
      begun.session.engine.lifecycle.phase = .running := by
  decide +kernel

end Interleaving

end SoloBuild
