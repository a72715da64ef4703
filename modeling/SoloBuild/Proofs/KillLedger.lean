import Mathlib.Algebra.GroupWithZero.Nat
import Mathlib.Data.List.Perm.Subperm
import SoloBuild.Proofs.KillRequests

/-!
# What kills count

A kill that was taken returns true when its process has been released; a sweep counts such kills.
The ledger of a run lists them in order, each with the place of its call and its process. No process
stands in it twice, so no two kills return true for one process, and what all calls together answer
is bounded by the number of processes that were started.

## Key results

- `confirmed`: the kills that have returned true in a run
- `Ledger.next`, `ledger_run`: no process is killed twice, and every sweep counts its own kills
- `killCall_run`: what a single kill has come to
- `asksWatched_of_endsByKill`: a process ends as killed only if it was asked to end in time
- `killAccount_run`: all of this together
-/

namespace SoloBuild

/-- How many kills of a call have returned true, as long as it counts them. -/
def Task.killed? : Task → Option Nat
  | .kill _ | .interceptKill .. => some 0
  | .killAll sweep | .cancelAll sweep | .hostBegin sweep => some sweep.killed
  | .unitRun _ | .interceptRun _ => none

/-- How many kills of a call have returned true, as long as it counts them or when it has answered
their number. -/
def Progress.killed? : Progress → Option Nat
  | .inl (.count killed) => some killed
  | .inl _ => none
  | .inr task => task.killed?

/-- So many processes were killed, says the answer to a call. -/
def killsAnswered : Call → Progress → Nat
  | .kill _, .inl (.flag true) => 1
  | _, .inl (.count killed) => killed
  | _, _ => 0

/-- A call that counts kills waits for the end of a process. -/
theorem Task.asked?_of_killed? {task : Task} {n : Nat} (h : task.killed? = some n) :
    task.asked? = some task.process := by
  cases task <;> first | rfl | cases h

/-- When numbers are bounded by how often their places stand in a list, so is their sum by the
length of the list. -/
theorem sum_le_length_of_count {counts places : List Nat}
    (h : ∀ i n, counts[i]? = some n → n ≤ places.count i) : counts.sum ≤ places.length := by
  induction counts using List.reverseRecOn generalizing places with
  | nil => simp
  | append_singleton counts n ih =>
    -- The last number is bounded by its own place, and the others by the places that are left.
    have hlast : n ≤ places.count counts.length := h _ n List.getElem?_concat_length
    have hrest : counts.sum ≤ (places.filter (· != counts.length)).length := by
      refine ih fun i m hm => ?_
      have hi := (List.getElem?_eq_some_iff.1 hm).1
      rw [List.count_filter (by simpa using Nat.ne_of_lt hi)]
      exact h i m (List.getElem?_append_left hi ▸ hm)
    have hsplit : places.length =
        places.count counts.length + (places.filter (· != counts.length)).length := by
      rw [List.count, ← List.countP_eq_length_filter,
        List.length_eq_countP_add_countP (· == counts.length)]
      simp only [bne, Bool.not_eq_true, Bool.decide_eq_false]
    rw [List.sum_append, List.sum_singleton]
    omega

namespace BuildProcess

variable {p : BuildProcess}

/-- The process is killed, or is going to be: it was asked to end while it ran. -/
def endsByKill (p : BuildProcess) : Bool :=
  match p.supervision with
  | .watching => p.killRequested
  | .killing | .killed => true
  | .draining _ | .exited _ => false

theorem endsByKill_of_state (h : p.state = .killed) : p.endsByKill = true := by
  obtain ⟨_, _, _, supervision, _⟩ := p
  cases supervision <;> first | rfl | cases h

/-- Whatever its supervisor does, a process is going to be killed only if it was so before. -/
theorem endsByKill_of_apply {step : SupervisorStep} (h : (step.apply p).endsByKill = true) :
    p.endsByKill = true := by
  obtain ⟨_, _, _, supervision, killRequested⟩ := p
  cases step <;> cases supervision <;> cases killRequested <;> first | rfl | cases h

/-- A request for the end of a process counts while its exit has not been observed. -/
theorem endsByKill_askToEnd (h : endsByKill { p with killRequested := true } = true) :
    p.endsByKill = true ∨ p.supervision = .watching ∧ p.killRequested = false := by
  obtain ⟨_, _, _, supervision, killRequested⟩ := p
  cases supervision <;> cases killRequested <;>
    first | exact .inl rfl | exact .inr ⟨rfl, rfl⟩ | cases h

end BuildProcess

namespace Session

variable (h : Host) (s : Session) {n : Nat}

theorem killed?_runCommand (request : CommandRequest) :
    Progress.killed? (s.runCommand h request).2 = none := by
  cases request with
  | compile file configuration => rfl
  | build projects configuration clean => rfl
  | debug project configuration f =>
    rw [runCommand]
    dsimp only
    split <;> rfl

theorem killed?_afterSweep {killed : Nat} {cs : List Channel} {wait : Processes.Sweep → Task}
    {finish : Session → Nat → Session × Answer}
    (hwait : ∀ sweep, (wait sweep).killed? = some sweep.killed)
    (hfinish : ∀ s killed n, Progress.killed? (.inl (finish s killed).2) = some n → n = killed)
    (hn : Progress.killed? (s.afterSweep (s.engine.processes.sweep killed cs) wait finish).2 =
      some n) : n = killed := by
  obtain ⟨heq, _⟩ | ⟨_, _, _, _, _, _, _, _, heq⟩ := afterSweep_cases s killed cs wait finish
  · rw [heq] at hn
    exact hfinish s killed n hn
  -- What it waits for now is not counted yet.
  · rw [heq, Progress.killed?, hwait] at hn
    exact (Option.some.inj hn).symm

theorem killed?_finish (killed : Nat) :
    (∀ n, Progress.killed? (.inl (s.killedAll killed).2) = some n → n = killed) ∧
      (∀ n, Progress.killed? (.inl (s.cancelledAll killed).2) = some n → n = killed) ∧
      ∀ n, Progress.killed? (.inl (s.begunAfterKills killed).2) = some n → n = killed :=
  ⟨fun _ hn => (Option.some.inj hn).symm, fun _ hn => (Option.some.inj hn).symm, nofun⟩

/-- A call that has just been made has counted no kill. -/
theorem killed?_begin {c : Call} (hn : Progress.killed? (s.begin h c).2 = some n) : n = 0 := by
  cases c with
  | debug project configuration f | start channel command | runUnit unit channel command =>
    rw [begin] at hn
    dsimp only at hn
    split at hn <;> cases hn
  | kill channel =>
    rw [begin] at hn
    dsimp only at hn
    split at hn <;> cases hn
    rfl
  | killAll => exact killed?_afterSweep s (fun _ => rfl) (fun s k => (killed?_finish s k).1) hn
  | cancelAll =>
    exact killed?_afterSweep s (fun _ => rfl) (fun s k => (killed?_finish s k).2.1) hn
  | buildBegin =>
    exact killed?_afterSweep { s with hostBuildRunning := true } (fun _ => rfl)
      (fun s k => (killed?_finish s k).2.2) hn
  | intercept mode confirm request =>
    cases mode with
    | preempt =>
      rw [begin] at hn
      obtain ⟨_, heq⟩ | ⟨_, _, _, heq⟩ | ⟨_, _, _, _, _, heq⟩ | ⟨asked, _, heq⟩ :=
        intercept_cases h s confirm request
      · rw [heq] at hn
        cases hn
      · rw [heq] at hn
        cases hn
      · rw [heq] at hn
        exact (Option.some.inj hn).symm
      · rw [heq, killed?_runCommand] at hn
        cases hn
    | listen => cases request <;> cases hn
  | compile | build | signal | requestFollowUp | deferFollowUp | unitDone | buildDone
    | cancelRequested => cases hn

/-- A call that goes on has counted one kill more. -/
theorem killed?_resume {task : Task} (hn : Progress.killed? (s.resume h task).2 = some n) :
    ∃ m, task.killed? = some m ∧ n = m + 1 := by
  cases task with
  | killAll sweep =>
    exact ⟨_, rfl, killed?_afterSweep s (fun _ => rfl) (fun s k => (killed?_finish s k).1) hn⟩
  | cancelAll sweep =>
    exact ⟨_, rfl, killed?_afterSweep s (fun _ => rfl) (fun s k => (killed?_finish s k).2.1) hn⟩
  | hostBegin sweep =>
    exact ⟨_, rfl, killed?_afterSweep s (fun _ => rfl) (fun s k => (killed?_finish s k).2.2) hn⟩
  | interceptKill process request =>
    rw [resume, killed?_runCommand] at hn
    cases hn
  | kill | unitRun | interceptRun => cases hn

end Session

namespace Interleaving

variable {h : Host} {x : Interleaving} {e : Event} {place other i : Nat}
  {kills : List (Nat × Nat)}

/-! ## The ledger of a run -/

/-- The kill that returns true in an event: the place of its call, and its process. -/
def confirms? (x : Interleaving) : Event → Option (Nat × Nat)
  | .resume place =>
    (x.awaits? place).bind fun i => if x.processes.isReleased i then some (place, i) else none
  | _ => none

/-- The kills that return true in the run of some events, in order. -/
def confirmed (h : Host) : Interleaving → List Event → List (Nat × Nat)
  | _, [] => []
  | x, e :: events => (x.confirms? e).toList ++ confirmed h (x.next h e) events

theorem confirmed_concat (events : List Event) (e : Event) :
    confirmed h x (events ++ [e]) =
      confirmed h x events ++ ((x.run h events).confirms? e).toList := by
  induction events generalizing x with
  | nil => simp [confirmed]
  | cons e' events ih =>
    rw [List.cons_append, confirmed, confirmed, ih, run_cons, List.append_assoc]

theorem confirms?_eq_some_iff :
    x.confirms? e = some (place, i) ↔
      e = .resume place ∧ x.awaits? place = some i ∧ x.processes.isReleased i = true := by
  cases e with
  | resume other =>
    rw [confirms?, Option.bind_eq_some_iff]
    constructor
    · rintro ⟨j, hwaits, hkill⟩
      split at hkill
      · cases hkill
        exact ⟨rfl, hwaits, ‹_›⟩
      · cases hkill
    · rintro ⟨heq, hwaits, hreleased⟩
      cases heq
      exact ⟨i, hwaits, if_pos hreleased⟩
  | call | supervise | forward => simp [confirms?]

/-- Whoever waits after an event for the end of a process that was asked to end before has waited
already, and was not answered in that event. -/
theorem awaits?_of_isAsked (hasked : x.processes.IsAsked i)
    (hwaits : (x.next h e).awaits? place = some i) :
    x.awaits? place = some i ∧ x.confirms? e ≠ some (place, i) := by
  constructor
  · cases moves_next h x e with
    | idle _ calls | supervise _ _ _ calls =>
      rw [← hwaits]
      exact awaits?_congr (congrArg (·[place]?) calls.symm)
    | carry _ _ hy =>
      obtain ⟨_, hold⟩ | ⟨_, hnew⟩ := hy.awaits?_cases hwaits
      · exact hold
      · exact absurd hasked (hy.not_isAsked hnew)
  · intro hconfirms
    obtain ⟨rfl, hbefore, hreleased⟩ := confirms?_eq_some_iff.1 hconfirms
    obtain ⟨task, hcall, _⟩ := awaits?_eq_some_iff.1 hbefore
    rw [← process_of_awaits? hcall hbefore] at hreleased
    -- The call has gone on, and what it waits for now was not asked to end before.
    have hchange := Session.change_resume h x.session task
    rw [awaits?, getElem?_calls_resume hcall hreleased, Option.bind_some] at hwaits
    rw [hwaits] at hchange
    exact hchange.not_isAsked hasked

/-- What the kills that have returned true say about calls and processes. -/
structure Ledger (x : Interleaving) (kills : List (Nat × Nat)) : Prop where
  nodup : (kills.map Prod.snd).Nodup
  asked : ∀ kill ∈ kills, x.processes.IsAsked kill.2
  released : ∀ kill ∈ kills, x.processes.isReleased kill.2 = true
  /-- Nobody waits any more for a process whose kill has returned true. -/
  settled : ∀ kill ∈ kills, ∀ place, x.awaits? place ≠ some kill.2
  counted : ∀ place progress n, x.calls[place]? = some progress →
    Progress.killed? progress = some n → (kills.map Prod.fst).count place = n
  made : ∀ kill ∈ kills, kill.1 < x.calls.length

/-- A call counts the kills that return true at its place. -/
theorem Ledger.counted_next (hx : x.Accounted) (hl : x.Ledger kills) {progress : Progress} {n : Nat}
    (hcall : (x.next h e).calls[place]? = some progress)
    (hn : Progress.killed? progress = some n) :
    ((kills ++ (x.confirms? e).toList).map Prod.fst).count place = n := by
  rw [List.map_append, List.count_append]
  obtain hold | ⟨c, rfl, rfl, hbegin⟩ | ⟨task, rfl, htask, hreleased, hresumed, _⟩ :=
    getElem?_calls_next_cases hcall
  · rw [hl.counted place progress n hold hn, Nat.add_eq_left, List.count_eq_zero]
    intro hmem
    simp only [List.mem_map, Option.mem_toList] at hmem
    obtain ⟨⟨other, i⟩, hconfirms, heq⟩ := hmem
    cases heq
    -- A kill that returned true at the place would have carried the call on.
    have hwaits := (confirms?_eq_some_iff.1 hconfirms).2.1
    have hagain : (x.next h e).awaits? other = some i := by
      rw [awaits?_congr (hcall.trans hold.symm), hwaits]
    exact (awaits?_of_isAsked (hx.asked other i hwaits) hagain).2 hconfirms
  · have hnone : (kills.map Prod.fst).count x.calls.length = 0 := by
      rw [List.count_eq_zero]
      intro hmem
      obtain ⟨kill, hkill, heq⟩ := List.mem_map.1 hmem
      exact absurd (hl.made kill hkill) (heq ▸ Nat.lt_irrefl _)
    rw [← hbegin] at hn
    rw [hnone, Session.killed?_begin h x.session hn]
    rfl
  · rw [← hresumed] at hn
    obtain ⟨m, hm, rfl⟩ := Session.killed?_resume h x.session hn
    have hconfirms : x.confirms? (.resume place) = some (place, task.process) :=
      confirms?_eq_some_iff.2
        ⟨rfl, awaits?_eq_some_iff.2 ⟨task, htask, Task.asked?_of_killed? hm⟩, hreleased⟩
    rw [hl.counted place _ m htask hm, hconfirms]
    simp

theorem Ledger.next (hx : x.Accounted) (hl : x.Ledger kills) (e : Event) :
    (x.next h e).Ledger (kills ++ (x.confirms? e).toList) := by
  have hkeeps := keeps_next h x e
  have hasked : ∀ kill ∈ kills ++ (x.confirms? e).toList, x.processes.IsAsked kill.2 := by
    intro kill hkill
    obtain hkill | hkill := List.mem_append.1 hkill
    · exact hl.asked kill hkill
    · exact hx.asked _ _ (confirms?_eq_some_iff.1 (Option.mem_toList.1 hkill)).2.1
  refine ⟨?_, fun kill hkill => (hasked kill hkill).keeps hkeeps, fun kill hkill => ?_,
    fun kill hkill place hwaits => ?_, fun place progress n hcall hn => hl.counted_next hx hcall hn,
    fun kill hkill => ?_⟩
  · rw [List.map_append, List.nodup_append]
    refine ⟨hl.nodup, ?_, ?_⟩
    · cases x.confirms? e <;> simp
    -- A process that is in the ledger is not waited for, so it does not come in again.
    · intro i hi j hj heq
      simp only [List.mem_map, Option.mem_toList] at hi hj
      obtain ⟨kill, hkill, rfl⟩ := hi
      obtain ⟨⟨place, _⟩, hconfirms, rfl⟩ := hj
      exact hl.settled kill hkill place (heq ▸ (confirms?_eq_some_iff.1 hconfirms).2.1)
  · obtain hkill | hkill := List.mem_append.1 hkill
    · exact hkeeps.isReleased (hl.released kill hkill)
    · exact hkeeps.isReleased (confirms?_eq_some_iff.1 (Option.mem_toList.1 hkill)).2.2
  · obtain ⟨hbefore, hnot⟩ := awaits?_of_isAsked (hasked kill hkill) hwaits
    obtain hkill | hkill := List.mem_append.1 hkill
    · exact hl.settled kill hkill place hbefore
    · have hconfirms := Option.mem_toList.1 hkill
      have hplace := hx.unique _ _ _ (confirms?_eq_some_iff.1 hconfirms).2.1 hbefore
      exact hnot (hplace ▸ hconfirms)
  · have hlength := length_calls_next (h := h) (x := x) e
    obtain hkill | hkill := List.mem_append.1 hkill
    · exact Nat.lt_of_lt_of_le (hl.made kill hkill) (hlength ▸ Nat.le_add_right _ _)
    · obtain ⟨_, hcall, _⟩ :=
        awaits?_eq_some_iff.1 (confirms?_eq_some_iff.1 (Option.mem_toList.1 hkill)).2.1
      exact Nat.lt_of_lt_of_le (List.getElem?_eq_some_iff.1 hcall).1
        (hlength ▸ Nat.le_add_right _ _)

theorem ledger_fresh (files : FileTree) : (fresh files).Ledger [] where
  nodup := .nil
  asked := nofun
  released := nofun
  settled := nofun
  counted _ _ _ hcall := by cases hcall
  made := nofun

theorem ledger_run (files : FileTree) (events : List Event) :
    (run h (fresh files) events).Ledger (confirmed h (fresh files) events) := by
  induction events using List.reverseRecOn with
  | nil => exact ledger_fresh files
  | append_singleton events e ih =>
    rw [run_concat, confirmed_concat]
    exact ih.next (accounted_run files events) e

/-! ## What a single kill answers -/

/-- What a kill on a channel has come to: it waits for a process there, it has found none to ask, or
the process it has asked is in the ledger. -/
inductive KillCall (x : Interleaving) (kills : List (Nat × Nat)) (c : Channel) (place : Nat) :
    Progress → Prop
  | waiting {i : Nat} {p : BuildProcess} (process : x.processes[i]? = some p)
      (channel : p.channel = c) : KillCall x kills c place (.inr (.kill i))
  | refused (unlisted : place ∉ kills.map Prod.fst) : KillCall x kills c place (.inl (.flag false))
  | done {i : Nat} {p : BuildProcess} (process : x.processes[i]? = some p)
      (channel : p.channel = c) (listed : (place, i) ∈ kills) :
      KillCall x kills c place (.inl (.flag true))

theorem killCall_call {c : Channel} (hl : x.Ledger kills) :
    ∃ progress, (x.next h (.call (.kill c))).calls[x.calls.length]? = some progress ∧
      KillCall (x.next h (.call (.kill c))) kills c x.calls.length progress := by
  refine ⟨_, List.getElem?_concat_length, ?_⟩
  obtain ⟨heq, _⟩ | ⟨p, i, hkillable, heq⟩ := Session.begin_kill_cases h x.session c
  · rw [heq]
    refine .refused fun hmem => ?_
    obtain ⟨kill, hkill, hplace⟩ := List.mem_map.1 hmem
    exact absurd (hl.made kill hkill) (hplace ▸ Nat.lt_irrefl _)
  · obtain ⟨p', hp', hp⟩ := keeps_next h x (.call (.kill c)) i p hkillable.getElem?
    rw [heq]
    exact .waiting hp' (hp.channel.trans (Processes.latest?_eq_some_iff.1 hkillable.latest).2.1)

theorem KillCall.next {c : Channel} {progress : Progress} (hk : KillCall x kills c place progress)
    (hcall : x.calls[place]? = some progress) (e : Event) :
    ∃ progress, (x.next h e).calls[place]? = some progress ∧
      KillCall (x.next h e) (kills ++ (x.confirms? e).toList) c place progress := by
  have hkeeps := keeps_next h x e
  cases hk with
  | @waiting i p hp channel =>
    obtain ⟨p', hp', hp⟩ := hkeeps i p hp
    have hchannel := hp.channel.trans channel
    obtain hidle | ⟨rfl, hreleased⟩ :
        (x.next h e).calls[place]? = x.calls[place]? ∨
          e = .resume place ∧ x.processes.isReleased i = true := by
      by_cases he : e = .resume place
      · subst he
        obtain heq | ⟨task, htask, hreleased, _⟩ := next_resume_cases h x place
        · exact .inl (by rw [heq])
        · cases hcall.symm.trans htask
          exact .inr ⟨rfl, hreleased⟩
      · exact .inl (getElem?_calls_next (List.getElem?_eq_some_iff.1 hcall).1 he)
    · exact ⟨_, hidle.trans hcall, .waiting hp' hchannel⟩
    · have hconfirms : x.confirms? (.resume place) = some (place, i) :=
        confirms?_eq_some_iff.2 ⟨rfl, awaits?_eq_some_iff.2 ⟨_, hcall, rfl⟩, hreleased⟩
      refine ⟨_, getElem?_calls_resume hcall hreleased, .done hp' hchannel ?_⟩
      rw [hconfirms]
      exact List.mem_append_right _ (List.mem_singleton_self _)
  | refused unlisted =>
    refine ⟨_, answered_next hcall e, .refused fun hmem => ?_⟩
    rw [List.map_append, List.mem_append] at hmem
    obtain hmem | hmem := hmem
    · exact unlisted hmem
    -- A call that was answered waits for nothing.
    · simp only [List.mem_map, Option.mem_toList] at hmem
      obtain ⟨⟨other, i⟩, hconfirms, heq⟩ := hmem
      cases heq
      have hwaits := (confirms?_eq_some_iff.1 hconfirms).2.1
      rw [awaits?, hcall] at hwaits
      cases hwaits
  | @done i p hp channel listed =>
    obtain ⟨p', hp', hp⟩ := hkeeps i p hp
    exact ⟨_, answered_next hcall e,
      .done hp' (hp.channel.trans channel) (List.mem_append_left _ listed)⟩

/-- What a kill answers tells whether the ledger has it. -/
theorem KillCall.answer_eq {c : Channel} {answer : Answer}
    (hk : KillCall x kills c place (.inl answer)) :
    ∃ flag, answer = .flag flag ∧
      (flag = true ↔ ∃ i p, (place, i) ∈ kills ∧ x.processes[i]? = some p ∧ p.channel = c) := by
  cases hk with
  | refused unlisted =>
    refine ⟨false, rfl, nofun, ?_⟩
    rintro ⟨i, p, hmem, _⟩
    exact absurd (List.mem_map_of_mem hmem) unlisted
  | @done i p process channel listed =>
    exact ⟨true, rfl, fun _ => ⟨i, p, listed, process, channel⟩, fun _ => rfl⟩

theorem killCall_run (files : FileTree) (events : List Event) {c : Channel}
    (hmade : (madeCalls events)[place]? = some (.kill c)) :
    ∃ progress, (run h (fresh files) events).calls[place]? = some progress ∧
      KillCall (run h (fresh files) events) (confirmed h (fresh files) events) c place
        progress := by
  induction events using List.reverseRecOn with
  | nil => cases hmade
  | append_singleton events e ih =>
    have hlength := length_calls_run (h := h) (x := fresh files) events
    rw [show (fresh files).calls.length = 0 from rfl, Nat.zero_add] at hlength
    rw [run_concat, confirmed_concat]
    rw [madeCalls_append] at hmade
    -- The call was made before the last event, or by it.
    by_cases hplace : place < (madeCalls events).length
    · rw [List.getElem?_append_left hplace] at hmade
      obtain ⟨progress, hcall, hk⟩ := ih hmade
      exact hk.next hcall e
    · rw [List.getElem?_append_right (Nat.not_lt.1 hplace)] at hmade
      cases e with
      | call c' =>
        rw [show madeCalls [.call c'] = [c'] from rfl, List.getElem?_singleton] at hmade
        split at hmade
        · obtain rfl : place = (run h (fresh files) events).calls.length := by omega
          cases hmade
          obtain ⟨progress, hcall, hk⟩ := killCall_call (h := h) (c := c) (ledger_run files events)
          exact ⟨progress, hcall, by simpa [confirms?] using hk⟩
        · cases hmade
      | resume | supervise | forward => cases hmade

theorem killCall_answer_run (files : FileTree) (events : List Event) {c : Channel}
    {answer : Answer} (hmade : (madeCalls events)[place]? = some (.kill c))
    (hcall : (run h (fresh files) events).calls[place]? = some (.inl answer)) :
    ∃ flag, answer = .flag flag ∧
      (flag = true ↔ ∃ i p, (place, i) ∈ confirmed h (fresh files) events ∧
        (run h (fresh files) events).processes[i]? = some p ∧ p.channel = c) := by
  obtain ⟨_, hcall', hk⟩ := killCall_run (h := h) files events hmade
  cases hcall.symm.trans hcall'
  exact hk.answer_eq

/-! ## Who ends as killed -/

/-- In this event somebody asks for the end of a process whose exit has not been observed. -/
def AsksWatched (h : Host) (i : Nat) (x : Interleaving) (e : Event) : Prop :=
  (∃ p, x.processes[i]? = some p ∧ p.supervision = .watching ∧ p.killRequested = false) ∧
    (x.next h e).processes.IsAsked i

theorem endsByKill_next_cases {p : BuildProcess} (hp : (x.next h e).processes[i]? = some p)
    (hends : p.endsByKill = true) :
    (∃ q, x.processes[i]? = some q ∧ q.endsByKill = true) ∨ AsksWatched h i x e := by
  unfold AsksWatched
  obtain ⟨asked, hchange⟩ | ⟨process, step, _, heq⟩ := processes_next_cases h x e
  · generalize (x.next h e).processes = after at hp hchange
    cases hchange with
    | same => exact .inl ⟨p, hp, hends⟩
    | kill =>
      obtain ⟨q, hq, hpq⟩ := Processes.getElem?_supervise.1 hp
      split at hpq
      -- Its end is asked for now: that counts if its exit has not been observed.
      · subst hpq
        obtain hends | hwatched := BuildProcess.endsByKill_askToEnd hends
        · exact .inl ⟨q, hq, hends⟩
        · exact .inr ⟨⟨q, hq, hwatched⟩, _, hp, rfl⟩
      · exact .inl ⟨q, hq, hpq ▸ hends⟩
    | start =>
      obtain hp | ⟨_, rfl⟩ := Processes.getElem?_concat_cases hp
      · exact .inl ⟨p, hp, hends⟩
      · cases hends
  · rw [heq] at hp
    obtain ⟨q, hq, rfl⟩ := Processes.getElem?_supervise.1 hp
    split at hends
    · exact .inl ⟨q, hq, BuildProcess.endsByKill_of_apply hends⟩
    · exact .inl ⟨q, hq, hends⟩

/-- A process that is killed, or is going to be, was asked to end while it was watched. -/
theorem asksWatched_of_endsByKill (files : FileTree) (events : List Event) {p : BuildProcess}
    (hp : (run h (fresh files) events).processes[i]? = some p) (hends : p.endsByKill = true) :
    Occurs h (AsksWatched h i) (fresh files) events := by
  induction events using List.reverseRecOn generalizing p with
  | nil => cases hp
  | append_singleton events e ih =>
    rw [run_concat] at hp
    rw [occurs_concat]
    -- Going back, the process is to be killed until the event that has asked for it.
    obtain ⟨q, hq, hends⟩ | hasks := endsByKill_next_cases hp hends
    · exact .inl (ih hq hends)
    · exact .inr hasks

/-! ## The account of a run -/

/-- What the kills of a run come to, given those that have returned true: the places of their calls,
and their processes. -/
structure KillAccount (h : Host) (files : FileTree) (events : List Event) (x : Interleaving)
    (kills : List (Nat × Nat)) : Prop where
  /-- No two kills return true for one process. -/
  once : (kills.map Prod.snd).Nodup
  /-- When a kill has returned true, its process is released. -/
  released : ∀ kill ∈ kills, ∃ p, x.processes[kill.2]? = some p ∧ p.killRequested = true ∧
    p.state.isTerminal = true
  /-- A single kill answers whether it is one of them, for a process on its channel. -/
  kill : ∀ place c answer, (madeCalls events)[place]? = some (.kill c) →
    x.calls[place]? = some (.inl answer) →
      ∃ flag, answer = .flag flag ∧
        (flag = true ↔ ∃ i p, (place, i) ∈ kills ∧ x.processes[i]? = some p ∧ p.channel = c)
  /-- A sweep answers how many of them are its own. -/
  count : ∀ place n, x.calls[place]? = some (.inl (.count n)) →
    (kills.map Prod.fst).count place = n
  /-- All kills together answer at most the number of processes. -/
  total : ((madeCalls events).zipWith killsAnswered x.calls).sum ≤ x.processes.length
  /-- A process ends as killed only if it was asked to end before its exit was observed. -/
  killed : ∀ i, x.processes.stateAt i = .killed → Occurs h (AsksWatched h i) (fresh files) events

/-- What a call answers about kills is bounded by the kills of the ledger at its place. -/
theorem Ledger.killsAnswered_le (hl : x.Ledger kills) {c : Call} {progress : Progress}
    (hcall : x.calls[place]? = some progress)
    (hkill : ∀ channel answer, c = .kill channel → progress = .inl answer →
      ∃ flag, answer = .flag flag ∧ (flag = true ↔ ∃ i p, (place, i) ∈ kills ∧
        x.processes[i]? = some p ∧ p.channel = channel)) :
    killsAnswered c progress ≤ (kills.map Prod.fst).count place := by
  unfold killsAnswered
  split
  · obtain ⟨_, heq, hlisted⟩ := hkill _ _ rfl rfl
    cases heq
    obtain ⟨i, _, hmem, _⟩ := hlisted.1 rfl
    exact List.count_pos_iff.2 (List.mem_map_of_mem hmem)
  · exact Nat.le_of_eq (hl.counted place _ _ hcall rfl).symm
  · exact Nat.zero_le _

/-- The ledger has no more kills than there are processes. -/
theorem Ledger.length_le (hl : x.Ledger kills) : kills.length ≤ x.processes.length := by
  have hsub : kills.map Prod.snd ⊆ List.range x.processes.length := by
    intro i hi
    obtain ⟨kill, hmem, rfl⟩ := List.mem_map.1 hi
    obtain ⟨_, hp, _⟩ := hl.asked kill hmem
    exact List.mem_range.2 (List.getElem?_eq_some_iff.1 hp).1
  simpa using (List.Nodup.subperm hl.nodup hsub).length_le

/-- Every interleaving of calls, ends of processes and steps of supervisors releases each process
once. -/
theorem killAccount_run (h : Host) (files : FileTree) (events : List Event) :
    KillAccount h files events (run h (fresh files) events)
      (confirmed h (fresh files) events) := by
  have hl := ledger_run (h := h) files events
  refine ⟨hl.nodup, fun kill hmem => ?_,
    fun place c answer hmade hcall => killCall_answer_run files events hmade hcall,
    fun place n hcall => hl.counted place _ n hcall rfl, ?_, fun i hstate => ?_⟩
  · obtain ⟨p, hp, hasked⟩ := hl.asked kill hmem
    have hreleased := hl.released kill hmem
    rw [Processes.isReleased, Processes.stateAt, hp] at hreleased
    exact ⟨p, hp, hasked, hreleased⟩
  · refine Nat.le_trans ?_ hl.length_le
    rw [← List.length_map Prod.fst]
    refine sum_le_length_of_count fun place n hn => ?_
    obtain ⟨c, progress, hmade, hcall, rfl⟩ := List.getElem?_zipWith_eq_some.1 hn
    refine hl.killsAnswered_le hcall ?_
    rintro channel answer rfl rfl
    exact killCall_answer_run files events hmade hcall
  · rw [Processes.stateAt] at hstate
    split at hstate
    · next p hp =>
      exact asksWatched_of_endsByKill files events hp (BuildProcess.endsByKill_of_state hstate)
    · cases hstate

end Interleaving

end SoloBuild
