import Mathlib.Data.List.Induction
import SoloBuild.Proofs.Interleaving

/-!
# The table of processes

Whatever happens in a session, its table of processes changes in few ways: a call asks for at most
one process to be killed or starts at most one, before it ends or waits, and a supervisor takes one
step of its process. What is said about the table later is derived from these ways, and from what
each process keeps.

## Key results

- `latest?_eq_some_iff`: which process is the latest on a channel
- `Processes.Change`: how a call may change the table, and for whose end it waits then
- `Processes.sweep_cases`: which channels a sweep passes over, and where it stops
- `BuildProcess.Keeps`, `Change.keeps`: what a process keeps, whatever happens to the table
- `Keeps.stateAt_eq`: the state of a released process stays the same
- `LatestLive`, `LatestLive.change`: only the latest process on a channel can be live
- `start_eq_alreadyRunning_iff`: when a start is refused
-/

namespace SoloBuild

/-! ## One process -/

namespace BuildProcess

/-- What a process keeps while others act: what it is, that it was asked to end, and its end. -/
structure Keeps (p p' : BuildProcess) : Prop where
  channel : p'.channel = p.channel
  command : p'.command = p.command
  killRequested : p.killRequested = true → p'.killRequested = true
  /-- A released process is not touched again. -/
  released : p.isLive = false → p'.supervision = p.supervision

variable {p p' p'' : BuildProcess}

theorem Keeps.refl (p : BuildProcess) : Keeps p p := ⟨rfl, rfl, id, fun _ => rfl⟩

theorem isLive_congr (h : p'.supervision = p.supervision) : p'.isLive = p.isLive := by
  rw [isLive, isLive, state, state, h]

theorem Keeps.isLive (h : Keeps p p') (hlive : p'.isLive = true) : p.isLive = true := by
  cases hp : p.isLive with
  | true => rfl
  | false => rw [isLive_congr (h.released hp), hp] at hlive; cases hlive

theorem Keeps.trans (h : Keeps p p') (h' : Keeps p' p'') : Keeps p p'' where
  channel := h'.channel.trans h.channel
  command := h'.command.trans h.command
  killRequested hp := h'.killRequested (h.killRequested hp)
  released hp := by
    have hp' : p'.isLive = false := by rw [isLive_congr (h.released hp), hp]
    rw [h'.released hp', h.released hp]

/-- A supervisor changes only how far it has got with a process that is not released. -/
theorem keeps_apply (step : SupervisorStep) (p : BuildProcess) : Keeps p (step.apply p) := by
  obtain ⟨channel, command, run, supervision, killRequested⟩ := p
  -- A supervisor that has published the end of its process takes no step.
  refine ⟨?_, ?_, ?_, ?_⟩ <;>
    cases step <;> cases supervision <;> cases killRequested <;>
      simp [SupervisorStep.apply, observeExit, drained, takeKill, release, isLive, state,
        Supervision.state, ProcessState.isRunning]

end BuildProcess

namespace Processes

variable {ps ps' : Processes} {c : Channel} {p : BuildProcess} {i : Nat}

/-! ## The latest process on a channel -/

/-- A place in a table with one more process is an old one, or the last. -/
theorem getElem?_concat_cases {q : BuildProcess} (h : (ps ++ [q])[i]? = some p) :
    ps[i]? = some p ∨ i = ps.length ∧ p = q := by
  have hlt := (List.getElem?_eq_some_iff.1 h).1
  rw [List.length_append, List.length_singleton] at hlt
  by_cases hi : i = ps.length
  · subst hi
    rw [List.getElem?_concat_length, Option.some.injEq] at h
    exact .inr ⟨rfl, h.symm⟩
  · rw [List.getElem?_append_left (by omega)] at h
    exact .inl h

theorem latest?_concat (ps : Processes) (p : BuildProcess) (c : Channel) :
    (ps ++ [p] : Processes).latest? c =
      if p.channel = c then some (p, ps.length) else ps.latest? c := by
  have hlast : (ps ++ [p]).zipIdx.reverse = (p, ps.length) :: ps.zipIdx.reverse := by
    simp [List.zipIdx_append]
  simp only [latest?, hlast, List.find?_cons]
  by_cases h : p.channel = c
  · simp [h]
  · simp only [beq_eq_false_iff_ne.2 h, if_neg h]

/-- The latest process on a channel is the one there that has none after it. -/
theorem latest?_eq_some_iff :
    ps.latest? c = some (p, i) ↔
      ps[i]? = some p ∧ p.channel = c ∧
        ∀ j q, ps[j]? = some q → q.channel = c → j ≤ i := by
  induction ps using List.reverseRecOn with
  | nil => simp [latest?]
  | append_singleton ps q ih =>
    rw [latest?_concat]
    split
    -- The last process is on the channel, and nothing comes after it.
    · next hq =>
      constructor
      · rintro ⟨⟩
        refine ⟨List.getElem?_concat_length, hq, fun j r hr _ => ?_⟩
        have hlt := (List.getElem?_eq_some_iff.1 hr).1
        rw [List.length_append, List.length_singleton] at hlt
        exact Nat.le_of_lt_succ hlt
      · rintro ⟨hp, -, hlast⟩
        have hle : ps.length ≤ i := hlast _ q List.getElem?_concat_length hq
        obtain hp | ⟨rfl, rfl⟩ := getElem?_concat_cases hp
        · exact absurd (List.getElem?_eq_some_iff.1 hp).1 (Nat.not_lt.2 hle)
        · rfl
    -- Otherwise it is another process, found among those before it.
    · next hq =>
      have hold : ∀ {j : Nat} {r : BuildProcess}, (ps ++ [q])[j]? = some r → r.channel = c →
          ps[j]? = some r := by
        intro j r hr hrc
        obtain hr | ⟨_, rfl⟩ := getElem?_concat_cases hr
        · exact hr
        · exact absurd hrc hq
      have hnew : ∀ {j : Nat} {r : BuildProcess}, ps[j]? = some r →
          (ps ++ [q])[j]? = some r := fun hr =>
        List.getElem?_append_left (List.getElem?_eq_some_iff.1 hr).1 ▸ hr
      rw [ih]
      constructor
      · rintro ⟨hp, hc, hlast⟩
        exact ⟨hnew hp, hc, fun j r hr hrc => hlast j r (hold hr hrc) hrc⟩
      · rintro ⟨hp, hc, hlast⟩
        exact ⟨hold hp hc, hc, fun j r hr hrc => hlast j r (hnew hr) hrc⟩

theorem isLive_eq_true_iff :
    ps.isLive c = true ↔ ∃ p i, ps.latest? c = some (p, i) ∧ p.isLive = true := by
  rw [isLive]
  cases ps.latest? c with
  | none => simp
  | some found => simp [Prod.ext_iff]

/-! ## How a call changes the table -/

/-- The live process of a channel, whose end nobody has asked for. -/
structure Killable (ps : Processes) (c : Channel) (p : BuildProcess) (i : Nat) : Prop where
  latest : ps.latest? c = some (p, i)
  live : p.isLive = true
  unasked : p.killRequested = false

/-- How a call changes the table of processes before it ends or waits, and for whose end it waits
then, when it has asked for that. -/
inductive Change (ps : Processes) : Processes → Option Nat → Prop where
  | same : Change ps ps none
  /-- The live process of a channel is asked to end. -/
  | kill {c : Channel} {p : BuildProcess} {i : Nat} (killable : ps.Killable c p i) :
      Change ps (ps.supervise i fun p => { p with killRequested := true }) (some i)
  /-- A process is started on a free channel. -/
  | start {c : Channel} (command : BuildCommand) (run : ProcessRun) (free : ps.isLive c = false) :
      Change ps (ps ++ [{ channel := c, command, run }]) none

/-- There is no process on these channels that could be asked to end. -/
def NoneKillable (ps : Processes) (cs : List Channel) : Prop :=
  ∀ c ∈ cs, ∀ p i, ¬ ps.Killable c p i

theorem requestKill_cases (ps : Processes) (c : Channel) :
    ps.requestKill c = (ps, none) ∧ (∀ p i, ¬ ps.Killable c p i) ∨
      ∃ p i, ps.Killable c p i ∧
        ps.requestKill c = (ps.supervise i fun p => { p with killRequested := true }, some i) := by
  rw [requestKill]
  cases hlatest : ps.latest? c with
  | none =>
    refine .inl ⟨rfl, fun p i hkillable => ?_⟩
    cases hlatest.symm.trans hkillable.latest
  | some found =>
    obtain ⟨p, i⟩ := found
    cases hask : p.isLive && !p.killRequested with
    | false =>
      refine .inl ⟨by simp [hask], fun q j hkillable => ?_⟩
      cases hlatest.symm.trans hkillable.latest
      simp [hkillable.live, hkillable.unasked] at hask
    | true =>
      rw [Bool.and_eq_true, Bool.not_eq_true'] at hask
      exact .inr ⟨p, i, ⟨hlatest, hask.1, hask.2⟩, by simp [hask]⟩

/-- A sweep passes over the channels on which there is no process to end, and stops at the first
process that it has asked to end. -/
theorem sweep_cases (ps : Processes) (killed : Nat) (cs : List Channel) :
    ps.sweep killed cs = (ps, .inr killed) ∧ ps.NoneKillable cs ∨
      ∃ passed c p i rest, cs = passed ++ c :: rest ∧ ps.NoneKillable passed ∧
        ps.Killable c p i ∧
        ps.sweep killed cs = (ps.supervise i fun p => { p with killRequested := true },
          .inl { process := i, rest, killed }) := by
  induction cs with
  | nil => exact .inl ⟨rfl, nofun⟩
  | cons c cs ih =>
    rw [sweep]
    obtain ⟨h, hnone⟩ | ⟨p, i, hkillable, h⟩ := requestKill_cases ps c
    -- A channel on which there is nothing to end is passed over.
    · rw [h]
      refine ih.imp (And.imp_right fun hcs => List.forall_mem_cons.2 ⟨hnone, hcs⟩) ?_
      rintro ⟨passed, d, p, i, rest, rfl, hpassed, hrest⟩
      exact ⟨c :: passed, d, p, i, rest, rfl, List.forall_mem_cons.2 ⟨hnone, hpassed⟩, hrest⟩
    · rw [h]
      exact .inr ⟨[], c, p, i, cs, rfl, nofun, hkillable, rfl⟩

/-! ## What the table keeps -/

/-- Every process stays at its place, and keeps what a process keeps. -/
def Keeps (ps ps' : Processes) : Prop :=
  ∀ (i : Nat) (p : BuildProcess), ps[i]? = some p → ∃ p', ps'[i]? = some p' ∧ p.Keeps p'

theorem Keeps.refl (ps : Processes) : Keeps ps ps := fun _ p hp => ⟨p, hp, .refl p⟩

theorem Keeps.trans {ps'' : Processes} (h : Keeps ps ps') (h' : Keeps ps' ps'') :
    Keeps ps ps'' := by
  intro i p hp
  obtain ⟨p', hp', hkeeps⟩ := h i p hp
  obtain ⟨p'', hp'', hkeeps'⟩ := h' i p' hp'
  exact ⟨p'', hp'', hkeeps.trans hkeeps'⟩

theorem getElem?_supervise {step : BuildProcess → BuildProcess} {j : Nat} {p' : BuildProcess} :
    (ps.supervise i step)[j]? = some p' ↔
      ∃ p, ps[j]? = some p ∧ p' = if i = j then step p else p := by
  rw [supervise, List.getElem?_modify, Option.map_eq_map, Option.map_eq_some_iff]
  by_cases h : i = j <;> simp [h, eq_comm]

@[simp] theorem length_supervise (ps : Processes) (i : Nat) (step : BuildProcess → BuildProcess) :
    (ps.supervise i step).length = ps.length :=
  List.length_modify step ps i

theorem keeps_supervise {step : BuildProcess → BuildProcess}
    (hstep : ∀ p : BuildProcess, p.Keeps (step p)) (ps : Processes) (i : Nat) :
    Keeps ps (ps.supervise i step) := by
  intro j p hp
  refine ⟨_, getElem?_supervise.2 ⟨p, hp, rfl⟩, ?_⟩
  split
  · exact hstep p
  · exact .refl p

theorem keeps_askToEnd (p : BuildProcess) : p.Keeps { p with killRequested := true } :=
  ⟨rfl, rfl, fun _ => rfl, fun _ => rfl⟩

theorem Change.keeps {asked : Option Nat} (h : Change ps ps' asked) : Keeps ps ps' := by
  cases h with
  | same => exact .refl ps
  | kill => exact keeps_supervise keeps_askToEnd ps _
  | start command run =>
    intro i p hp
    exact ⟨p, List.getElem?_append_left (List.getElem?_eq_some_iff.1 hp).1 ▸ hp, .refl p⟩

/-- The state of a released process stays the same. -/
theorem Keeps.stateAt_eq (h : Keeps ps ps') (hreleased : ps.isReleased i = true) :
    ps'.stateAt i = ps.stateAt i := by
  rw [isReleased] at hreleased
  rw [stateAt] at hreleased ⊢
  split at hreleased
  · next p hp =>
    obtain ⟨p', hp', hkeeps⟩ := h i p hp
    have hlive : p.isLive = false := by
      rw [BuildProcess.isLive]
      cases hstate : p.state with
      | exited | killed => rfl
      | notStarted | running => rw [hstate] at hreleased; cases hreleased
    rw [stateAt, hp, hp']
    exact congrArg Supervision.state (hkeeps.released hlive)
  · cases hreleased

/-- A process is added only on a free channel. -/
theorem Change.free_of_concat {asked : Option Nat} (h : Change ps (ps ++ [p]) asked) :
    ps.isLive p.channel = false := by
  generalize hps' : ps ++ [p] = ps' at h
  cases h with
  | same => simp at hps'
  | kill => simpa using congrArg List.length hps'
  | start command run free =>
    obtain ⟨-, hp⟩ := List.append_inj' hps' rfl
    cases hp
    exact free

/-! ## Live processes -/

/-- Only the latest process on a channel is live. -/
def LatestLive (ps : Processes) : Prop :=
  ∀ (i : Nat) (p : BuildProcess), ps[i]? = some p → p.isLive = true →
    ps.latest? p.channel = some (p, i)

theorem LatestLive.supervise (h : LatestLive ps) {step : BuildProcess → BuildProcess}
    (hstep : ∀ p : BuildProcess, p.Keeps (step p)) : LatestLive (ps.supervise i step) := by
  intro j p' hp' hlive
  -- What a step leaves live was live before it, and the channels are the same.
  have hback : ∀ {k : Nat} {q' : BuildProcess}, (ps.supervise i step)[k]? = some q' →
      ∃ q, ps[k]? = some q ∧ q.Keeps q' := by
    intro k q' hq'
    obtain ⟨q, hq, rfl⟩ := getElem?_supervise.1 hq'
    refine ⟨q, hq, ?_⟩
    split
    · exact hstep q
    · exact .refl q
  obtain ⟨p, hp, hkeeps⟩ := hback hp'
  -- Its predecessor was the latest on the channel, so it has none after it.
  have hlatest := latest?_eq_some_iff.1 (h j p hp (hkeeps.isLive hlive))
  refine latest?_eq_some_iff.2 ⟨hp', rfl, fun k q' hq' hchannel => ?_⟩
  obtain ⟨q, hq, hkeeps'⟩ := hback hq'
  exact hlatest.2.2 k q hq (by rw [← hkeeps'.channel, hchannel, hkeeps.channel])

theorem LatestLive.isLive_iff (h : LatestLive ps) :
    ps.isLive c = true ↔ ∃ p ∈ ps, p.channel = c ∧ p.isLive = true := by
  rw [isLive_eq_true_iff]
  constructor
  · rintro ⟨p, i, hlatest, hlive⟩
    obtain ⟨hp, hc, _⟩ := latest?_eq_some_iff.1 hlatest
    exact ⟨p, List.mem_of_getElem? hp, hc, hlive⟩
  · rintro ⟨p, hmem, rfl, hlive⟩
    obtain ⟨i, hp⟩ := List.getElem?_of_mem hmem
    exact ⟨p, i, h i p hp hlive, hlive⟩

theorem LatestLive.change {asked : Option Nat} (h : LatestLive ps) (hchange : Change ps ps' asked) :
    LatestLive ps' := by
  cases hchange with
  | same => exact h
  | kill => exact h.supervise keeps_askToEnd
  | @start c command run free =>
    intro i p hp hlive
    rw [latest?_concat]
    split
    · next hc =>
      obtain hp | ⟨rfl, rfl⟩ := getElem?_concat_cases hp
      -- An earlier process cannot be live, since the channel was free.
      · have hlive' := h.isLive_iff.2 ⟨p, List.mem_of_getElem? hp, hc.symm, hlive⟩
        rw [free] at hlive'
        cases hlive'
      · rfl
    · next hc =>
      obtain hp | ⟨_, rfl⟩ := getElem?_concat_cases hp
      · exact h i p hp hlive
      · exact absurd rfl hc

/-- A start is refused exactly when the channel has a live process. -/
theorem start_eq_alreadyRunning_iff {command : BuildCommand}
    {launched : Except OsError ProcessRun} :
    ps.start c command launched = .error (.alreadyRunning c) ↔ ps.isLive c = true := by
  unfold start
  cases ps.isLive c with
  | true => simp
  | false => cases launched <;> simp

end Processes

end SoloBuild
