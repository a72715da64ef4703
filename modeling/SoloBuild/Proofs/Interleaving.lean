import SoloBuild.Session.Call

/-!
# Interleaved calls

A call that waits for a process leaves the session to others: calls are made meanwhile, calls go on
whose process is released, supervisors take their steps, and readers forward lines. An interleaving
is a session with the calls made on it so far; an event is one step of any of them, without anything
in between. Every list of events is a run: an event that is not possible changes nothing, so a
statement about all lists of events is one about all orders in which the steps can be taken.

## Key results

- `next_resume_cases`: a call goes on only when the process it waits for is released
- `length_calls_run`: the calls of a run are those that were made, each at the place of its making
- `answered_run`: a call that was answered stays answered
- `occurs_iff_exists`: what it means that an event occurs at a moment of some kind
- `run_invariant_of_not_occurs`: what a run without events of some kind keeps
- `madeCalls_append`, `run_append`: runs compose
-/

namespace SoloBuild

/-- A step of the supervisor of a process. -/
inductive SupervisorStep where
  /-- It sees the process end. -/
  | observeExit (code : Option Int32)
  /-- It has waited for the output of a process that ended by itself. -/
  | drained
  /-- It receives the request to kill the process. -/
  | takeKill
  /-- It has waited for a killed process. -/
  | release
  deriving DecidableEq, Repr

/-- What a step of a supervisor does to its process. -/
def SupervisorStep.apply : SupervisorStep → BuildProcess → BuildProcess
  | observeExit code => BuildProcess.observeExit code
  | drained => BuildProcess.drained
  | takeKill => BuildProcess.takeKill
  | release => BuildProcess.release

/-- One step in an interleaving. -/
inductive Event where
  /-- A call is made, and carried out up to its end or its first wait. -/
  | call (call : Call)
  /-- The call made at this place goes on, if the process it waits for is released. -/
  | resume (place : Nat)
  /-- The supervisor of a process takes a step. -/
  | supervise (process : Nat) (step : SupervisorStep)
  /-- A reader forwards a line of output. -/
  | forward (line : List UInt8)
  deriving DecidableEq, Repr

/-- A session with the calls made on it, in order: what each of them has come to. -/
structure Interleaving where
  session : Session
  calls : List Progress := []

/-- The call that an event makes. -/
def Event.call? : Event → Option Call
  | call c => some c
  | resume _ | supervise .. | forward _ => none

/-- The calls that a run makes, in order. -/
def madeCalls (events : List Event) : List Call :=
  events.filterMap Event.call?

namespace Interleaving

/-- A session on which nothing has been done. -/
def fresh (files : FileTree) : Interleaving where
  session := { engine := { files } }

/-- All processes that were started. -/
def processes (x : Interleaving) : Processes :=
  x.session.engine.processes

/-- The interleaving after an event. -/
def next (h : Host) (x : Interleaving) : Event → Interleaving
  | .call c =>
    let begun := x.session.begin h c
    { session := begun.1, calls := x.calls ++ [begun.2] }
  | .resume place =>
    match x.calls[place]? with
    | some (.inr task) =>
      -- Until the process is released the call stays where it is.
      if x.processes.isReleased task.process then
        let resumed := x.session.resume h task
        { session := resumed.1, calls := x.calls.set place resumed.2 }
      else x
    | _ => x
  | .supervise process step =>
    { x with session.engine.processes := x.processes.supervise process step.apply }
  | .forward line => { x with session.engine := x.session.engine.tell [forwardLine line] }

/-- The interleaving after some events. -/
def run (h : Host) (x : Interleaving) (events : List Event) : Interleaving :=
  events.foldl (next h) x

variable {h : Host} {x : Interleaving}

@[simp] theorem run_nil : x.run h [] = x := rfl

@[simp] theorem run_cons (e : Event) (events : List Event) :
    x.run h (e :: events) = (x.next h e).run h events := rfl

/-- What every event of a run keeps, the run keeps. -/
theorem run_invariant {P : Interleaving → Prop} {events : List Event}
    (hnext : ∀ y, ∀ e ∈ events, P y → P (y.next h e)) (hx : P x) : P (x.run h events) := by
  induction events generalizing x with
  | nil => exact hx
  | cons e events ih =>
    rw [run_cons]
    exact ih (fun y e he => hnext y e (List.mem_cons_of_mem _ he))
      (hnext x e List.mem_cons_self hx)

theorem run_append (events more : List Event) :
    x.run h (events ++ more) = (x.run h events).run h more :=
  List.foldl_append

@[simp] theorem run_concat (events : List Event) (e : Event) :
    x.run h (events ++ [e]) = (x.run h events).next h e := by
  rw [run_append]; rfl

theorem madeCalls_cons (e : Event) (events : List Event) :
    madeCalls (e :: events) = e.call?.toList ++ madeCalls events := by
  cases h : e.call? <;> simp [madeCalls, h]

theorem madeCalls_append (events more : List Event) :
    madeCalls (events ++ more) = madeCalls events ++ madeCalls more :=
  List.filterMap_append

theorem mem_madeCalls {events : List Event} {c : Call} :
    c ∈ madeCalls events ↔ Event.call c ∈ events := by
  simp only [madeCalls, List.mem_filterMap]
  constructor
  · rintro ⟨e, he, hc⟩
    cases e <;> simp_all [Event.call?]
  · exact fun he => ⟨_, he, rfl⟩

/-- A call goes on only when it waits for a process that is released. -/
theorem next_resume_cases (h : Host) (x : Interleaving) (place : Nat) :
    x.next h (.resume place) = x ∨
      ∃ task, x.calls[place]? = some (.inr task) ∧ x.processes.isReleased task.process = true ∧
        x.next h (.resume place) =
          { session := (x.session.resume h task).1
            calls := x.calls.set place (x.session.resume h task).2 } := by
  rw [next]
  split
  · next task hcall =>
    split
    · next hreleased => exact .inr ⟨task, hcall, hreleased, rfl⟩
    · exact .inl rfl
  · exact .inl rfl

theorem next_resume_of_isReleased {place : Nat} {task : Task}
    (hcall : x.calls[place]? = some (.inr task))
    (hreleased : x.processes.isReleased task.process = true) :
    x.next h (.resume place) =
      { session := (x.session.resume h task).1
        calls := x.calls.set place (x.session.resume h task).2 } := by
  rw [next, hcall]
  dsimp only
  rw [if_pos hreleased]

theorem getElem?_calls_resume {place : Nat} {task : Task}
    (hcall : x.calls[place]? = some (.inr task))
    (hreleased : x.processes.isReleased task.process = true) :
    (x.next h (.resume place)).calls[place]? = some (x.session.resume h task).2 := by
  rw [next_resume_of_isReleased hcall hreleased]
  exact List.getElem?_set_self (List.getElem?_eq_some_iff.1 hcall).1

theorem getElem?_calls_resume_ne {place other : Nat} (hne : place ≠ other) :
    (x.next h (.resume place)).calls[other]? = x.calls[other]? := by
  obtain heq | ⟨_, _, _, heq⟩ := next_resume_cases h x place
  · rw [heq]
  · rw [heq]
    exact List.getElem?_set_ne hne

/-! ## The calls of a run -/

/-- An event adds the call that it makes to the calls of the interleaving. -/
theorem length_calls_next (e : Event) :
    (x.next h e).calls.length = x.calls.length + e.call?.toList.length := by
  cases e with
  | call c => simp [next, Event.call?]
  | resume place =>
    obtain heq | ⟨_, _, _, heq⟩ := next_resume_cases h x place <;> simp [heq, Event.call?]
  | supervise process step => rfl
  | forward line => rfl

theorem length_calls_run (events : List Event) :
    (x.run h events).calls.length = x.calls.length + (madeCalls events).length := by
  induction events generalizing x with
  | nil => rfl
  | cons e events ih =>
    rw [run_cons, ih, length_calls_next, madeCalls_cons, List.length_append, Nat.add_assoc]

/-- Only the event that lets a call go on changes what it has come to. -/
theorem getElem?_calls_next {e : Event} {place : Nat} (hplace : place < x.calls.length)
    (he : e ≠ .resume place) : (x.next h e).calls[place]? = x.calls[place]? := by
  cases e with
  | call c => exact List.getElem?_append_left hplace
  | resume other => exact getElem?_calls_resume_ne fun heq => he (heq ▸ rfl)
  | supervise process step => rfl
  | forward line => rfl

/-- What a call has come to after an event: the same as before, unless it was made just now or has
gone on. -/
theorem getElem?_calls_next_cases {e : Event} {place : Nat} {progress : Progress}
    (hcall : (x.next h e).calls[place]? = some progress) :
    x.calls[place]? = some progress ∨
      (∃ c, e = .call c ∧ place = x.calls.length ∧ (x.session.begin h c).2 = progress) ∨
      ∃ task, e = .resume place ∧ x.calls[place]? = some (.inr task) ∧
        x.processes.isReleased task.process = true ∧
        (x.session.resume h task).2 = progress ∧
        (x.next h e).session = (x.session.resume h task).1 := by
  by_cases hplace : place < x.calls.length
  -- Only the event that resumes an old call changes it.
  · by_cases he : e = .resume place
    · subst he
      obtain heq | ⟨task, htask, hreleased, heq⟩ := next_resume_cases h x place
      · rw [heq] at hcall
        exact .inl hcall
      · rw [getElem?_calls_resume htask hreleased, Option.some.injEq] at hcall
        exact .inr (.inr ⟨task, rfl, htask, hreleased, hcall, by rw [heq]⟩)
    · rw [getElem?_calls_next hplace he] at hcall
      exact .inl hcall
  -- A call that is new was made by the event.
  · have hlt := (List.getElem?_eq_some_iff.1 hcall).1
    rw [length_calls_next] at hlt
    cases e with
    | call c =>
      have hlast : place = x.calls.length := by
        simp only [Event.call?, Option.toList_some, List.length_singleton] at hlt
        omega
      subst hlast
      rw [next, List.getElem?_concat_length, Option.some.injEq] at hcall
      exact .inr (.inl ⟨c, rfl, rfl, hcall⟩)
    | resume | supervise | forward => exact absurd hlt hplace

theorem answered_next {place : Nat} {answer : Answer} (hcall : x.calls[place]? = some (.inl answer))
    (e : Event) : (x.next h e).calls[place]? = some (.inl answer) := by
  by_cases he : e = .resume place
  · subst he
    rw [next, hcall]
    exact hcall
  · rw [getElem?_calls_next (List.getElem?_eq_some_iff.1 hcall).1 he, hcall]

/-- A call that was answered stays answered. -/
theorem answered_run {place : Nat} {answer : Answer} (hcall : x.calls[place]? = some (.inl answer))
    (events : List Event) : (x.run h events).calls[place]? = some (.inl answer) :=
  run_invariant (P := fun y => y.calls[place]? = some (.inl answer))
    (fun _ e _ hy => answered_next hy e) hcall

/-! ## Occurrences -/

/-- In the run of some events one of them is of a certain kind at its moment. -/
def Occurs (h : Host) (P : Interleaving → Event → Prop) : Interleaving → List Event → Prop
  | _, [] => False
  | x, e :: events => P x e ∨ Occurs h P (x.next h e) events

variable {P : Interleaving → Event → Prop}

/-- Whether an event of a kind occurs is decided by running the events. -/
instance decidableOccurs [∀ x e, Decidable (P x e)] (x : Interleaving) :
    (events : List Event) → Decidable (Occurs h P x events)
  | [] => inferInstanceAs (Decidable False)
  | e :: events =>
    have := decidableOccurs (x.next h e) events
    inferInstanceAs (Decidable (P x e ∨ _))

@[simp] theorem not_occurs_nil : ¬ Occurs h P x [] := id

theorem occurs_append (events more : List Event) :
    Occurs h P x (events ++ more) ↔ Occurs h P x events ∨ Occurs h P (x.run h events) more := by
  induction events generalizing x with
  | nil => exact (or_iff_right not_occurs_nil).symm
  | cons e events ih => rw [List.cons_append, Occurs, Occurs, ih, or_assoc, run_cons]

theorem occurs_concat (events : List Event) (e : Event) :
    Occurs h P x (events ++ [e]) ↔ Occurs h P x events ∨ P (x.run h events) e := by
  rw [occurs_append, Occurs, or_iff_left not_occurs_nil]

/-- An event of a kind occurs when the events before it lead to a moment where it is of that
kind. -/
theorem occurs_iff_exists {events : List Event} :
    Occurs h P x events ↔
      ∃ before e after, events = before ++ e :: after ∧ P (x.run h before) e := by
  constructor
  · intro hoccurs
    induction events generalizing x with
    | nil => exact hoccurs.elim
    | cons e events ih =>
      obtain hP | hlater := hoccurs
      · exact ⟨[], e, events, rfl, hP⟩
      · obtain ⟨before, e', after, rfl, hP⟩ := ih hlater
        exact ⟨e :: before, e', after, rfl, hP⟩
  · rintro ⟨before, e, after, rfl, hP⟩
    exact (occurs_append before _).2 (.inr (.inl hP))

/-- What every event keeps but those of a kind, a run keeps in which no such event occurs. -/
theorem run_invariant_of_not_occurs {I : Interleaving → Prop} {events : List Event}
    (hnext : ∀ y e, ¬ P y e → I y → I (y.next h e)) (hx : I x) (hnot : ¬ Occurs h P x events) :
    I (x.run h events) := by
  induction events generalizing x with
  | nil => exact hx
  | cons e events ih =>
    rw [Occurs, not_or] at hnot
    exact ih (hnext x e hnot.1 hx) hnot.2

end Interleaving

/-! ## A solution to run calls on -/

/-- A solution with one project, whose builds can be started. -/
def sampleHost : Host where
  manifest :=
    { path := ⟨"solution.toml"⟩
      solution := { name := "Solution", dir := ⟨"/"⟩ }
      settings := { launcherScript := "launch", launcherMarker := "" }
      projects :=
        [{ name := "Game", dir := ⟨"/"⟩, buildCommands := [("Debug", "\"build.sh\" Game")],
           debugger := none }] }
  launch files _ := .ok ({}, files)

/-- The files of that solution: the script that names its launcher. -/
def sampleFiles : FileTree where
  nodes := [(["launch"], .file "\"launcher\"".toUTF8 false)]

end SoloBuild
