/-!
# The lifecycle of builds

A build begins, its units end one by one, and it ends or is cancelled. Meanwhile one follow-up may
be pending: an action that is due when the build it was queued against ends and no unit was seen to
fail. The lifecycle decides only which follow-up is due; running it is left to its owner, so that a
follow-up may act on the lifecycle in turn.

- `pending_done`: after the end of a build nothing is pending;
- `due_iff`: what is due at the end of a build, and at no other signal.
-/

namespace SoloBuild

/-- What is told about a build. -/
inductive BuildSignal where
  | begin
  | unitDone (unit : String) (success : Bool)
  | done
  | cancelRequested
  deriving DecidableEq, Repr

/-- The text a signal is shown with. -/
def BuildSignal.display : BuildSignal → String
  | begin => "build begin"
  | unitDone unit success =>
    "unit " ++ unit ++ " done (success: " ++ (if success then "true" else "false") ++ ")"
  | done => "build done"
  | cancelRequested => "cancel requested"

/-- Whether a build is under way. -/
inductive Phase where
  | idle
  | running
  deriving DecidableEq, Repr

/-- The state of the lifecycle, with follow-ups of type `α`. -/
structure Lifecycle (α : Type) where
  phase : Phase := .idle
  /-- The follow-up of the build under way, if one is queued. -/
  pending : Option α := none
  /-- No unit has failed since the build began while a follow-up was pending. -/
  success : Bool := true
  deriving DecidableEq, Repr

namespace Lifecycle

variable {α : Type}

/-- Queues a follow-up in place of the one that is pending. -/
def request (l : Lifecycle α) (followUp : α) : Lifecycle α :=
  { l with pending := some followUp }

/-- The lifecycle after a signal, and the follow-up that the signal made due. A build that begins
drops the follow-up of an earlier one; a failed unit counts only while a follow-up is pending. -/
def handle (l : Lifecycle α) : BuildSignal → Lifecycle α × Option α
  | .begin => ({ phase := .running, pending := none, success := true }, none)
  | .unitDone _ success =>
    ({ l with success := l.success && (success || l.pending.isNone) }, none)
  | .done => ({ l with phase := .idle, pending := none }, if l.success then l.pending else none)
  | .cancelRequested => ({ l with pending := none }, none)

/-- After the end of a build nothing is pending. -/
@[simp] theorem pending_done (l : Lifecycle α) : (l.handle .done).1.pending = none := rfl

/-- A signal makes a follow-up due exactly when it ends a build, the follow-up is pending, and no
failure was recorded. -/
theorem due_iff {l : Lifecycle α} {signal : BuildSignal} {followUp : α} :
    (l.handle signal).2 = some followUp ↔
      signal = .done ∧ l.pending = some followUp ∧ l.success = true := by
  cases signal <;> simp [handle, and_comm]

end Lifecycle

end SoloBuild
