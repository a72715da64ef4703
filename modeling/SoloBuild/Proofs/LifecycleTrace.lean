import SoloBuild.Lifecycle
import SoloBuild.Proofs.History

/-!
# Traces of a lifecycle

A lifecycle keeps three things: the phase, the pending follow-up, and whether a failure was seen.
This module says what each of them is after any operations, in terms of the operations alone, and
from that which follow-up the end of a build hands back. The failure that was seen outlives the
follow-up it was seen for, since only the begin of a build forgets it.

## Key results

- `pending_run_iff`, `success_run_iff`, `phase_run_iff`: the state after a trace
- `handedBack_sublist`: what is handed back was requested, each time anew
- `handedBack_run`: which operation of a trace hands back which follow-up
-/

namespace SoloBuild.Lifecycle

variable {α : Type}

/-- What is done to a lifecycle. -/
inductive Operation (α : Type) where
  | request (followUp : α)
  | signal (signal : BuildSignal)
  deriving DecidableEq, Repr

namespace Operation

/-- The follow-up that an operation requests. -/
def requested? : Operation α → Option α
  | request f => some f
  | signal _ => none

/-- The operation takes the place of the pending follow-up or puts an end to it. -/
def displaces : Operation α → Bool
  | request _ | signal .begin | signal .done | signal .cancelRequested => true
  | signal (.unitDone ..) => false

/-- The operation reports a unit that failed. -/
def isFailure : Operation α → Bool
  | signal (.unitDone _ false) => true
  | _ => false

end Operation

/-- The lifecycle after an operation, and the follow-up that the operation hands back. -/
def perform (l : Lifecycle α) : Operation α → Lifecycle α × Option α
  | .request f => (l.request f, none)
  | .signal s => l.handle s

/-- The lifecycle after some operations. -/
def run (l : Lifecycle α) (ops : List (Operation α)) : Lifecycle α :=
  ops.foldl (fun l op => (l.perform op).1) l

/-- The follow-ups that some operations hand back, in order. -/
def handedBack (l : Lifecycle α) : List (Operation α) → List α
  | [] => []
  | op :: ops => (l.perform op).2.toList ++ handedBack (l.perform op).1 ops

/-- The follow-ups that some operations request, in order. -/
def requested (ops : List (Operation α)) : List α :=
  ops.filterMap Operation.requested?

/-- The follow-up was requested, and no request, begin, end or cancellation came since. -/
def Queued (f : α) : List (Operation α) → Prop :=
  Since (fun _ op => op = .request f) fun op => op.displaces = false

/-- Since the last begin of a build, or from the start, a unit failed at a moment when a follow-up
was queued. -/
def FailureSeen : List (Operation α) → Prop :=
  Since (fun earlier op => op.isFailure = true ∧ ∃ f, Queued f earlier) (· ≠ .signal .begin)

variable {l : Lifecycle α} {ops : List (Operation α)} {f : α}

@[simp] theorem run_nil : l.run [] = l := rfl

@[simp] theorem run_concat (ops : List (Operation α)) (op : Operation α) :
    l.run (ops ++ [op]) = ((l.run ops).perform op).1 := by
  rw [run, List.foldl_append]
  rfl

/-! ## One operation -/

/-- Only the end of a build hands a follow-up back: the pending one, if no failure was seen. -/
theorem perform_eq_some_iff {op : Operation α} :
    (l.perform op).2 = some f ↔
      op = .signal .done ∧ l.pending = some f ∧ l.success = true := by
  cases op with
  | request g => simp [perform]
  | signal s => rw [perform, due_iff, Operation.signal.injEq]

/-- A follow-up is pending after an operation that requested it, or that left it pending. -/
theorem pending_perform_iff {op : Operation α} :
    (l.perform op).1.pending = some f ↔
      op = .request f ∨ l.pending = some f ∧ op.displaces = false := by
  cases op with
  | request g => simp [perform, Lifecycle.request, Operation.displaces]
  | signal s => cases s <;> simp [perform, handle, Operation.displaces]

/-- A failure is seen when a unit fails while a follow-up is pending, and stays seen until a build
begins. -/
theorem success_perform_iff {op : Operation α} :
    (l.perform op).1.success = false ↔
      (op.isFailure = true ∧ ∃ f, l.pending = some f) ∨
        l.success = false ∧ op ≠ .signal .begin := by
  cases op with
  | request g => simp [perform, Lifecycle.request, Operation.isFailure]
  | signal s =>
    cases s with
    | unitDone unit success =>
      -- Only a unit that is done looks at what is pending.
      cases success <;> cases hpending : l.pending <;>
        simp [perform, handle, Operation.isFailure, hpending]
    | begin | done | cancelRequested => simp [perform, handle, Operation.isFailure]

theorem phase_perform_iff {op : Operation α} :
    (l.perform op).1.phase = .running ↔
      op = .signal .begin ∨ l.phase = .running ∧ op ≠ .signal .done := by
  cases op with
  | request g => simp [perform, Lifecycle.request]
  | signal s => cases s <;> simp [perform, handle]

/-- What an operation hands back or leaves pending was pending before it or requested by it. -/
theorem perform_sublist (l : Lifecycle α) (op : Operation α) :
    ((l.perform op).2.toList ++ (l.perform op).1.pending.toList).Sublist
      (l.pending.toList ++ op.requested?.toList) := by
  cases op with
  | request g => exact List.sublist_append_right l.pending.toList [g]
  | signal s =>
    cases s with
    | begin | cancelRequested => exact List.nil_sublist _
    | unitDone unit success => simp [perform, handle, Operation.requested?]
    | done =>
      cases hsuccess : l.success <;> simp [perform, handle, Operation.requested?, hsuccess]

/-! ## Traces of a fresh lifecycle -/

/-- A follow-up is pending exactly when it is queued. -/
theorem pending_run_iff : (run {} ops).pending = some f ↔ Queued f ops := by
  induction ops using List.reverseRecOn with
  | nil => simp [Queued]
  | append_singleton ops op ih =>
    rw [run_concat, pending_perform_iff, ih, Queued, since_concat]

/-- The failure that is remembered is one that was seen. -/
theorem success_run_iff : (run {} ops).success = false ↔ FailureSeen ops := by
  induction ops using List.reverseRecOn with
  | nil => simp [FailureSeen]
  | append_singleton ops op ih =>
    have hqueued : (∃ f, (run {} ops).pending = some f) ↔ ∃ f, Queued f ops :=
      exists_congr fun f => pending_run_iff
    rw [run_concat, success_perform_iff, ih, hqueued, FailureSeen, since_concat]

/-- A build is under way exactly when one began after the last end. -/
theorem phase_run_iff :
    (run {} ops).phase = .running ↔
      Since (fun _ op => op = .signal .begin) (· ≠ .signal .done) ops := by
  induction ops using List.reverseRecOn with
  | nil => simp
  | append_singleton ops op ih => rw [run_concat, phase_perform_iff, ih, since_concat]

/-- What is handed back was pending before the trace or is requested by it, each time anew. -/
theorem handedBack_sublist (l : Lifecycle α) (ops : List (Operation α)) :
    (l.handedBack ops).Sublist (l.pending.toList ++ requested ops) := by
  induction ops generalizing l with
  | nil => exact List.nil_sublist _
  | cons op ops ih =>
    have hrequested : requested (op :: ops) = op.requested?.toList ++ requested ops := by
      cases hop : op.requested? <;> simp [requested, hop]
    -- What the first operation hands back and what it leaves pending for the others share what was
    -- pending before and what it requests.
    have hstep := (perform_sublist l op).append_right (requested ops)
    rw [List.append_assoc, List.append_assoc, ← hrequested] at hstep
    have hlater := (ih (l.perform op).1).append_left (l.perform op).2.toList
    exact hlater.trans hstep

/-- In a trace of a fresh lifecycle whose requests are for distinct follow-ups, an operation hands a
follow-up back exactly when it is the end of a build, the follow-up is queued, and no failure was
seen. So each follow-up is handed back once at most; what is pending is what is queued, which is
nothing after the end of a build; and a build is under way when one began after the last end. -/
theorem handedBack_run (ops : List (Operation α)) (hdistinct : (requested ops).Nodup) :
    (∀ before op rest, ops = before ++ op :: rest → ∀ f,
        ((run {} before).perform op).2 = some f ↔
          op = .signal .done ∧ Queued f before ∧ ¬ FailureSeen before) ∧
      (handedBack {} ops).Nodup ∧
      (∀ f, (run {} ops).pending = some f ↔ Queued f ops) ∧
      (∀ before rest, ops = before ++ .signal .done :: rest →
        (run {} (before ++ [.signal .done])).pending = none) ∧
      ((run {} ops).phase = .running ↔
        ∃ before rest, ops = before ++ .signal .begin :: rest ∧ .signal .done ∉ rest) := by
  refine ⟨fun before op rest _ f => ?_, ?_, fun f => pending_run_iff, fun before rest _ => ?_, ?_⟩
  · rw [perform_eq_some_iff, pending_run_iff, ← success_run_iff, Bool.not_eq_false]
  · exact (handedBack_sublist {} ops).nodup hdistinct
  · rw [run_concat]
    exact pending_done _
  · rw [phase_run_iff, since_eq_iff]

/-- The failure that was seen for one follow-up still counts against the next one, until a build
begins. -/
theorem handedBack_run_sample :
    let earlier : List (Operation Nat) := [.signal .begin, .request 1,
      .signal (.unitDone "Engine" false), .signal .done, .request 2]
    let later : List (Operation Nat) := [.signal .done, .signal .begin, .request 3]
    let ops := earlier ++ later ++ [.signal .done]
    (requested ops).Nodup ∧ handedBack {} ops = [3] ∧ Queued 2 earlier ∧ FailureSeen earlier ∧
      Queued 3 (earlier ++ later) ∧ ¬ FailureSeen (earlier ++ later) := by
  intro earlier later ops
  have hdistinct : (requested ops).Nodup := by decide
  obtain ⟨hlaw, -⟩ := handedBack_run ops hdistinct
  have hqueued : Queued 2 earlier := ⟨earlier.dropLast, .request 2, [], rfl, rfl, nofun⟩
  have hseen : FailureSeen earlier := by
    -- The end of the first build but one would hand back what is queued.
    by_contra hnot
    have hdue := (hlaw earlier _ (later.tail ++ [.signal .done]) rfl 2).2 ⟨rfl, hqueued, hnot⟩
    cases hdue
  have hlast := (hlaw (earlier ++ later) _ [] rfl 3).1 rfl
  exact ⟨hdistinct, rfl, hqueued, hseen, hlast.2⟩

end SoloBuild.Lifecycle
