import SoloBuild.Proofs.CallSteps

/-!
# Interceptions and the host's builds

While the host builds, its commands are refused. A command is looked at once, when the host asks
about it. One that was let through may have to wait until the running build of its channel has been
stopped, and a build of the host may begin in between: that build finds nothing left to stop, and
the command is carried out while the host builds.

## Key results

- `waiting_interceptKill_run`: how a command came to wait for its channel
- `spawns_of_intercepts`: only such a command starts a process while the host builds
-/

namespace SoloBuild

/-- The task of a command that is carried out in place of the host's. -/
def Task.isIntercept : Task → Bool
  | .interceptKill .. | .interceptRun _ => true
  | _ => false

namespace Session

variable (h : Host) (s : Session)

/-- A command waits for its channel only if it was let through, and had a live process to stop. -/
theorem begin_interceptKill {c : Call} {process : Nat} {request : CommandRequest}
    (htask : (s.begin h c).2 = .inr (.interceptKill process request)) :
    c = .intercept .preempt true request ∧ s.hostBuildRunning = false ∧
      ∃ p, s.engine.processes.latest? request.channel = some (p, process) ∧ p.isLive = true := by
  cases c with
  | intercept mode confirm command =>
    cases mode with
    | listen => cases command <;> cases htask
    | preempt =>
      rw [begin] at htask
      obtain ⟨_, heq⟩ | ⟨_, _, _, heq⟩ | ⟨p, i, hidle, hconfirm, hkillable, heq⟩ |
          ⟨asked, _, heq⟩ := intercept_cases h s confirm command
      · rw [heq] at htask
        cases htask
      · rw [heq] at htask
        cases htask
      · rw [heq] at htask
        cases htask
        exact ⟨by rw [hconfirm], hidle, p, hkillable.latest, hkillable.live⟩
      · have hnone := asked?_runCommand h { s with asked } command
        rw [← heq, htask] at hnone
        cases hnone
  | killAll | cancelAll | buildBegin =>
    obtain ⟨_, htask⟩ := afterSweep_eq_inr _ htask
    cases htask
  | debug project configuration f | start channel command | runUnit unit channel command
    | kill channel =>
    rw [begin] at htask
    dsimp only at htask
    split at htask <;> cases htask
  | compile | build | signal | requestFollowUp | deferFollowUp | unitDone | buildDone
    | cancelRequested => cases htask

/-- A call that goes on does not wait for its channel again. -/
theorem resume_ne_interceptKill (task : Task) (process : Nat) (request : CommandRequest) :
    (s.resume h task).2 ≠ .inr (.interceptKill process request) := by
  intro htask
  cases task with
  | killAll | cancelAll | hostBegin =>
    obtain ⟨_, htask⟩ := afterSweep_eq_inr _ htask
    cases htask
  | interceptKill process command =>
    have hnone := asked?_runCommand h s command
    rw [resume] at htask
    rw [htask] at hnone
    cases hnone
  | kill | unitRun | interceptRun => cases htask

end Session

namespace Interleaving

variable {h : Host} {x : Interleaving} {e : Event}

/-- An event is a step of a command that the host has asked about. -/
def Intercepts (x : Interleaving) : Event → Bool
  | .call (.intercept ..) => true
  | .resume place =>
    match x.calls[place]? with
    | some (.inr task) => task.isIntercept
    | _ => false
  | _ => false

/-- An event starts a process. -/
def Spawns (h : Host) (x : Interleaving) (e : Event) : Prop :=
  x.processes.length < (x.next h e).processes.length

/-- A command is let through, at a certain place, and waits for the process of its channel. -/
structure LetThrough (place process : Nat) (request : CommandRequest) (x : Interleaving)
    (e : Event) : Prop where
  call : e = .call (.intercept .preempt true request)
  place : place = x.calls.length
  /-- The host did not build. -/
  idle : x.session.hostBuildRunning = false
  live : ∃ p, x.processes.latest? request.channel = some (p, process) ∧ p.isLive = true

/-- A command that waits for its channel was let through before. -/
theorem waiting_interceptKill_run {events : List Event} {place process : Nat}
    {request : CommandRequest} (hcalls : x.calls = [])
    (hcall : (x.run h events).calls[place]? = some (.inr (.interceptKill process request))) :
    Occurs h (LetThrough place process request) x events := by
  induction events using List.reverseRecOn with
  | nil =>
    rw [run_nil, hcalls] at hcall
    cases hcall
  | append_singleton events e ih =>
    rw [run_concat] at hcall
    rw [occurs_concat]
    obtain hcall | ⟨c, rfl, hplace, htask⟩ | ⟨task, _, _, _, htask, _⟩ :=
      getElem?_calls_next_cases hcall
    -- Only the making of a call lets it wait for its channel; going on never does.
    · exact .inl (ih hcall)
    · obtain ⟨rfl, hidle, hlive⟩ := Session.begin_interceptKill h _ htask
      exact .inr ⟨rfl, hplace, hidle, hlive⟩
    · exact absurd htask (Session.resume_ne_interceptKill h _ task process request)

theorem not_spawns_of_processes (hsame : (x.next h e).processes = x.processes) :
    ¬ Spawns h x e := by
  rw [Spawns, hsame]
  exact Nat.lt_irrefl _

/-- A command that the host asks about while it builds is refused. -/
theorem processes_intercept_of_builds (hbuilds : x.session.hostBuildRunning = true)
    (mode : InterceptMode) (confirm : Bool) (request : CommandRequest) :
    (x.next h (.call (.intercept mode confirm request))).processes = x.processes := by
  cases mode with
  | listen => cases request <;> rfl
  | preempt =>
    rw [processes, next, Session.begin]
    obtain ⟨_, heq⟩ | ⟨hidle, _⟩ | ⟨_, _, hidle, _⟩ | ⟨_, ⟨hidle, _⟩, _⟩ :=
      Session.intercept_cases h x.session confirm request
    · rw [heq]
      rfl
    all_goals cases hbuilds.symm.trans hidle

/-- While the host builds, a step of a command starts a process only if the command was let through
when the host did not build, and has waited since for the process of its channel. -/
theorem spawns_of_intercepts (files : FileTree) (events : List Event)
    (hbuilds : (run h (fresh files) events).session.hostBuildRunning = true)
    (hintercepts : Intercepts (run h (fresh files) events) e = true)
    (hspawns : Spawns h (run h (fresh files) events) e) :
    ∃ place process request, e = .resume place ∧
      (run h (fresh files) events).calls[place]? = some (.inr (.interceptKill process request)) ∧
      Occurs h (LetThrough place process request) (fresh files) events := by
  cases e with
  | call c =>
    cases c with
    | intercept mode confirm request =>
      exact absurd hspawns
        (not_spawns_of_processes (processes_intercept_of_builds hbuilds mode confirm request))
    | _ => cases hintercepts
  | resume place =>
    obtain heq | ⟨task, htask, _, heq⟩ := next_resume_cases h (run h (fresh files) events) place
    · exact absurd hspawns (not_spawns_of_processes (congrArg processes heq))
    · rw [Intercepts, htask] at hintercepts
      cases task with
      | interceptKill process request =>
        exact ⟨place, process, request, rfl, htask, waiting_interceptKill_run rfl htask⟩
      | interceptRun completion =>
        refine absurd hspawns (not_spawns_of_processes ?_)
        rw [heq]
        exact Engine.processes_complete _ completion
      | _ => cases hintercepts
  | supervise | forward => cases hintercepts

theorem spawns_of_intercepts_sample :
    let request : CommandRequest := .debug "Game" "Debug" { label := "again" }
    let events : List Event := [.call (.debug "Game" "Debug" { label := "start" }),
      .call (.intercept .preempt true request), .call .buildBegin, .supervise 0 .takeKill,
      .supervise 0 .release]
    let x := run sampleHost (fresh sampleFiles) events
    x.session.hostBuildRunning = true ∧ Intercepts x (.resume 1) = true ∧
      Spawns sampleHost x (.resume 1) ∧
      ∃ place process request, Event.resume 1 = .resume place ∧
        x.calls[place]? = some (.inr (.interceptKill process request)) ∧
        Occurs sampleHost (LetThrough place process request) (fresh sampleFiles) events := by
  intro request events x
  have hbuilds : x.session.hostBuildRunning = true := by decide +kernel
  have hintercepts : Intercepts x (.resume 1) = true := by decide +kernel
  have hspawns : Spawns sampleHost x (.resume 1) := by
    rw [Spawns]
    decide +kernel
  exact ⟨hbuilds, hintercepts, hspawns,
    spawns_of_intercepts sampleFiles events hbuilds hintercepts hspawns⟩

/-- A command that was let through, and waited for its channel while a build of the host began,
starts a process while the host builds. -/
theorem spawns_of_waiting :
    let x := run sampleHost (fresh sampleFiles)
      [.call (.debug "Game" "Debug" { label := "start" }),
        .call (.intercept .preempt true (.debug "Game" "Debug" { label := "again" })),
        .call .buildBegin, .supervise 0 .takeKill, .supervise 0 .release]
    x.calls[2]? = some (.inl .nothing) ∧ x.session.hostBuildRunning = true ∧
      Intercepts x (.resume 1) = true ∧ x.processes.length = 1 ∧
      (x.next sampleHost (.resume 1)).processes.length = 2 ∧
      (x.next sampleHost (.resume 1)).session.hostBuildRunning = true := by
  decide +kernel

end Interleaving

end SoloBuild
