import SoloBuild.Engine.Basic
import SoloBuild.Proofs.LifecycleTrace

/-!
# Follow-ups that queue follow-ups

A follow-up may queue another one when it runs, which may queue another one, to any depth. It runs
after the lifecycle has taken in the signal that ended the build, so what it queues is one more
request, behind that signal. With these requests written out an engine does what its lifecycle does,
and the laws of lifecycles hold also of the follow-ups that only another follow-up asks for.

## Key results

- `Lifecycle.run_append`, `Lifecycle.handedBack_append`: traces of a lifecycle compose
- `Engine.perform_cases`: what an operation on an engine does
- `Engine.lifecycle_performAll`, `Engine.fired_performAll`: an engine does what its lifecycle does
- `Engine.requeued_performAll`: no follow-up is lost, and none runs early
-/

namespace SoloBuild

namespace Lifecycle

variable {α : Type} {l : Lifecycle α}

theorem run_append (ops more : List (Operation α)) :
    l.run (ops ++ more) = (l.run ops).run more :=
  List.foldl_append

theorem handedBack_append (ops more : List (Operation α)) :
    l.handedBack (ops ++ more) = l.handedBack ops ++ (l.run ops).handedBack more := by
  induction ops generalizing l with
  | nil => rfl
  | cons op ops ih => rw [List.cons_append, handedBack, handedBack, ih, List.append_assoc]; rfl

/-- Each end of a build hands back one follow-up at most. -/
theorem length_handedBack_le [DecidableEq α] (ops : List (Operation α)) :
    (l.handedBack ops).length ≤ ops.count (.signal .done) := by
  induction ops generalizing l with
  | nil => exact Nat.le_refl 0
  | cons op ops ih =>
    have hlater := ih (l := (l.perform op).1)
    rw [handedBack, List.length_append, List.count_cons]
    cases hdue : (l.perform op).2 with
    | none => simp; omega
    | some f =>
      have hdone : op = .signal .done := (perform_eq_some_iff.1 hdue).1
      simp [hdone] at hlater ⊢; omega

end Lifecycle

/-- A follow-up ran while nothing was pending and no build was under way. -/
def FollowUp.quietFiring (f : FollowUp) : Firing :=
  { label := f.label, sawPending := false, phase := .idle }

namespace Engine

open Lifecycle (Operation requested handedBack Queued FailureSeen)

/-! ## Operations on an engine -/

/-- The engine after an operation. -/
def perform (e : Engine) : Operation FollowUp → Engine
  | .request f => e.requestFollowUp f
  | .signal s => (e.signal s).1

/-- The engine after some operations. -/
def performAll (e : Engine) (ops : List (Operation FollowUp)) : Engine :=
  ops.foldl perform e

/-- The operations on the lifecycle that an operation comes to: the follow-up that it runs may
request another one. -/
def steps (e : Engine) (op : Operation FollowUp) : List (Operation FollowUp) :=
  op :: ((e.lifecycle.perform op).2.bind FollowUp.next?).toList.map .request

/-- The operations on the lifecycle that some operations come to. -/
def trace : Engine → List (Operation FollowUp) → List (Operation FollowUp)
  | _, [] => []
  | e, op :: ops => e.steps op ++ trace (e.perform op) ops

variable {e : Engine} {f : FollowUp}

theorem lifecycle_fire_eq : (e.fire f).lifecycle = e.lifecycle.run (f.next?.toList.map .request) := by
  rw [fire]
  cases f.next? <;> rfl

/-- An operation changes the lifecycle, and then runs the follow-up that is handed back. -/
theorem perform_cases (e : Engine) (op : Operation FollowUp) :
    ((e.lifecycle.perform op).2 = none ∧
        e.perform op = { e with lifecycle := (e.lifecycle.perform op).1 }) ∨
      ∃ f, (e.lifecycle.perform op).2 = some f ∧
        e.perform op = fire { e with lifecycle := (e.lifecycle.perform op).1 } f := by
  cases op with
  | request f => exact .inl ⟨rfl, rfl⟩
  | signal s =>
    rw [perform, signal, Lifecycle.perform]
    split
    · next heq => exact .inl ⟨by rw [heq], by rw [heq]⟩
    · next f heq => exact .inr ⟨f, by rw [heq], by rw [heq]⟩

theorem lifecycle_perform (e : Engine) (op : Operation FollowUp) :
    (e.perform op).lifecycle = e.lifecycle.run (e.steps op) := by
  obtain ⟨hnone, heq⟩ | ⟨f, hsome, heq⟩ := perform_cases e op
  · rw [heq, steps, hnone]
    rfl
  · rw [heq, lifecycle_fire_eq, steps, hsome]
    rfl

/-- A follow-up that runs sees nothing pending and no build under way. -/
theorem fired_perform (e : Engine) (op : Operation FollowUp) :
    (e.perform op).fired =
      e.fired ++ (e.lifecycle.perform op).2.toList.map FollowUp.quietFiring := by
  obtain ⟨hnone, heq⟩ | ⟨f, hsome, heq⟩ := perform_cases e op
  · rw [heq, hnone]
    exact (List.append_nil _).symm
  -- Only the end of a build hands a follow-up back.
  · obtain ⟨rfl, -⟩ := Lifecycle.perform_eq_some_iff.1 hsome
    rw [heq, hsome, fire]
    cases f.next? <;> rfl

/-- The requests behind an operation hand nothing back. -/
theorem handedBack_steps (e : Engine) (op : Operation FollowUp) :
    e.lifecycle.handedBack (e.steps op) = (e.lifecycle.perform op).2.toList := by
  rw [steps, handedBack]
  cases (e.lifecycle.perform op).2.bind FollowUp.next? <;> exact List.append_nil _

theorem count_done_steps (e : Engine) (op : Operation FollowUp) :
    (e.steps op).count (.signal .done) = [op].count (.signal .done) := by
  rw [steps]
  cases (e.lifecycle.perform op).2.bind FollowUp.next? with
  | none => rfl
  | some next => simp [List.count_cons]

/-- A signal runs no follow-up, or the pending one, and what this one queues is pending then. -/
theorem signal_cases (e : Engine) (s : BuildSignal) :
    ((e.signal s).2 = false ∧ (e.signal s).1.fired = e.fired) ∨
      ∃ f, e.lifecycle.pending = some f ∧ (e.signal s).2 = true ∧
        (e.signal s).1.fired = e.fired ++ [f.quietFiring] ∧
        (e.signal s).1.lifecycle.pending = f.next? := by
  have hfired := fired_perform e (.signal s)
  have hlifecycle := lifecycle_perform e (.signal s)
  rw [steps] at hlifecycle
  cases hdue : (e.lifecycle.perform (.signal s)).2 with
  | none =>
    have hnot : (e.signal s).2 = false := by
      rw [← Bool.not_eq_true, signal_eq_true_iff]
      exact fun hsome => by cases (congrArg Option.isSome hdue).symm.trans hsome
    rw [hdue] at hfired
    exact .inl ⟨hnot, hfired.trans (List.append_nil _)⟩
  | some f =>
    obtain ⟨hdone, hpending, -⟩ := Lifecycle.perform_eq_some_iff.1 hdue
    have hruns : (e.signal s).2 = true := signal_eq_true_iff.2 (congrArg Option.isSome hdue)
    rw [hdue] at hfired hlifecycle
    refine .inr ⟨f, hpending, hruns, hfired, (congrArg Lifecycle.pending hlifecycle).trans ?_⟩
    -- The end of a build leaves nothing pending but what is requested behind it.
    obtain rfl := Operation.signal.inj hdone
    rw [Option.bind_some]
    cases f.next? <;> rfl

/-! ## Sequences of operations -/

/-- The lifecycle of an engine is what the operations make of it, those of its follow-ups among
them. -/
theorem lifecycle_performAll (e : Engine) (ops : List (Operation FollowUp)) :
    (e.performAll ops).lifecycle = e.lifecycle.run (e.trace ops) := by
  induction ops generalizing e with
  | nil => rfl
  | cons op ops ih =>
    rw [trace, Lifecycle.run_append, ← lifecycle_perform, ← ih]
    rfl

/-- The follow-ups that run are those that the lifecycle hands back. -/
theorem fired_performAll (e : Engine) (ops : List (Operation FollowUp)) :
    (e.performAll ops).fired =
      e.fired ++ (e.lifecycle.handedBack (e.trace ops)).map FollowUp.quietFiring := by
  induction ops generalizing e with
  | nil => exact (List.append_nil _).symm
  | cons op ops ih =>
    rw [trace, Lifecycle.handedBack_append, ← lifecycle_perform, handedBack_steps, List.map_append,
      ← List.append_assoc, ← fired_perform, ← ih]
    rfl

theorem count_done_trace (e : Engine) (ops : List (Operation FollowUp)) :
    (e.trace ops).count (.signal .done) = ops.count (.signal .done) := by
  induction ops generalizing e with
  | nil => rfl
  | cons op ops ih =>
    rw [trace, List.count_append, count_done_steps, ih, ← List.count_append, List.singleton_append]

/-- After any signals and requests on a fresh engine, a signal runs one follow-up or none, and says
which. What runs was pending and sees nothing pending, in the idle phase; what it queues is pending
afterwards and has not run. It runs exactly in an end of a build for which a follow-up is queued,
by a request or by another follow-up, and no failure was seen. So all that ran was requested, each
time anew, and there are no more runs than ends of builds. -/
theorem requeued_performAll (files : FileTree) (ops : List (Operation FollowUp)) :
    let e := performAll { files } ops
    let all := trace { files } ops
    (∀ s, ((e.signal s).2 = false ∧ (e.signal s).1.fired = e.fired) ∨
        ∃ f, e.lifecycle.pending = some f ∧ (e.signal s).2 = true ∧
          (e.signal s).1.fired = e.fired ++ [⟨f.label, false, .idle⟩] ∧
          (e.signal s).1.lifecycle.pending = f.next?) ∧
      (∀ f, e.lifecycle.pending = some f ↔ Queued f all) ∧
      (∀ s, (e.signal s).2 = true ↔ s = .done ∧ (∃ f, Queued f all) ∧ ¬ FailureSeen all) ∧
      (∃ ran : List FollowUp, e.fired = ran.map FollowUp.quietFiring ∧ ran.Sublist (requested all)) ∧
      e.fired.length ≤ ops.count (.signal .done) ∧
      e.fired.length ≤ (requested all).length := by
  intro e all
  have hlifecycle : e.lifecycle = Lifecycle.run {} all := lifecycle_performAll { files } ops
  have hfired : e.fired = (handedBack {} all).map FollowUp.quietFiring :=
    fired_performAll { files } ops
  have hpending : ∀ f, e.lifecycle.pending = some f ↔ Queued f all := fun f => by
    rw [hlifecycle, Lifecycle.pending_run_iff]
  have hran : (handedBack {} all).Sublist (requested all) := Lifecycle.handedBack_sublist {} all
  refine ⟨signal_cases e, hpending, fun s => ?_, ⟨_, hfired, hran⟩, ?_, ?_⟩
  · have hsuccess : e.lifecycle.success = true ↔ ¬ FailureSeen all := by
      rw [hlifecycle, ← Lifecycle.success_run_iff, Bool.not_eq_false]
    simp only [signal_eq_true_iff, Option.isSome_iff_exists, Lifecycle.due_iff, hpending, hsuccess,
      exists_and_left, exists_and_right]
  · rw [hfired, List.length_map, ← count_done_trace { files } ops]
    exact Lifecycle.length_handedBack_le all
  · rw [hfired, List.length_map]
    exact hran.length_le

/-- The second of three follow-ups in a row runs with the next end of a build, and the third one is
dropped when another build begins. -/
example :
    let e := performAll { files := {} }
      [.signal .begin, .request { label := "one", later := ["two", "three"] }, .signal .done,
        .signal (.unitDone "Game" true), .signal .done, .signal .begin, .signal .done]
    e.fired = [⟨"one", false, .idle⟩, ⟨"two", false, .idle⟩] ∧ e.hasPending = false := by
  decide

end Engine

end SoloBuild
