import SoloBuild.Proofs.CallSteps

/-!
# How requests come out

The three requests of an engine come out in the same ways: the channel has a live process, and
nothing happens; the request falls back, and the sink is told so last; or a process is started,
which a request for debugging waits for. Here they are one function of the command that is asked for, and
what is said of requests is derived from one lemma about it.

## Key results

- `Engine.served`: the ways in which a request comes out before it ends or waits
- `Session.begin_call`, `Session.runCommand_eq`: the calls that serve a request
- `unitRun_run`: a request that waits is answered by the end of its process, and in no other way
- `answer_request_iff`: how a request has come out is what its call is answered
- `startsNothing_request`: a request that starts nothing leaves the processes alone, and one that is
  refused leaves everything alone
-/

namespace SoloBuild

/-- The call that makes a request without asking the host. -/
def CommandRequest.call : CommandRequest → Call
  | compile file configuration => .compile file configuration
  | build projects configuration clean => .build projects configuration clean
  | debug project configuration followUp => .debug project configuration followUp

namespace Engine

variable (h : Host) (e : Engine)

/-- Serves a request up to its end or its first wait. -/
def serve : CommandRequest → Engine × (Outcome ⊕ Completion)
  | .compile file configuration =>
    let ran := e.compileSingleFile h file configuration
    (ran.1, .inl ran.2)
  | .build projects configuration clean =>
    let ran := e.buildSelection h projects configuration clean
    (ran.1, .inl ran.2)
  | .debug project configuration followUp => e.debugStartup h project configuration followUp

/-- How a request comes out before it ends or waits: the engine then, and the answer or what is left
to be done. -/
inductive Served (e : Engine) (c : Channel) : Engine × (Outcome ⊕ Completion) → Prop
  /-- The channel has a live process. -/
  | busy (live : e.processes.isLive c = true) : Served e c (e, .inl (.busy c))
  /-- The default build is to be run, and the sink is told so last. -/
  | fellBack {e' : Engine} {reason : EngineError} (free : e.processes.isLive c = false)
      (processes : e'.processes = e.processes)
      (output : ∃ told, e'.output = e.output ++ told ++ reason.report) :
    Served e c (e', .inl (.fallback reason))
  /-- A process has been started. -/
  | started {e' : Engine} {command : BuildCommand} {run : ProcessRun}
      (free : e.processes.isLive c = false)
      (processes : e'.processes = e.processes ++ [{ channel := c, command, run }]) :
    Served e c (e', .inl (.started c e.processes.length))
  /-- A process has been started, and is waited for. -/
  | waits {e' : Engine} {unit : String} {command : BuildCommand} {run : ProcessRun}
      (free : e.processes.isLive c = false)
      (processes : e'.processes = e.processes ++ [{ channel := c, command, run }]) :
    Served e c (e', .inr { unit, process := e.processes.length })

variable {e} {e' : Engine} {c : Channel}

/-- An engine that has at most told its sink something, and changed files. -/
structure Told (e e' : Engine) : Prop where
  processes : e'.processes = e.processes
  output : ∃ told, e'.output = e.output ++ told

theorem Told.tell (htold : Told e e') (calls : List SinkCall) : Told e (e'.tell calls) := by
  obtain ⟨told, houtput⟩ := htold.output
  refine ⟨htold.processes, told ++ calls, ?_⟩
  rw [Engine.tell, houtput, List.append_assoc]

theorem told_start (e : Engine) (files : FileTree) :
    Told e { e.tell [.clear, .activate] with files } :=
  ⟨rfl, _, rfl⟩

theorem served_fallBack (htold : Told e e') (hfree : e.processes.isLive c = false)
    (reason : EngineError) :
    Served e c ((e'.fallBack reason).1, .inl (e'.fallBack reason).2) := by
  obtain ⟨told, houtput⟩ := htold.output
  exact .fellBack hfree htold.processes ⟨told, by rw [output_fallBack, houtput]⟩

theorem served_launchOn (htold : Told e e') (hfree : e.processes.isLive c = false)
    (command : BuildCommand) :
    Served e c ((e'.launchOn h c command).1, .inl (e'.launchOn h c command).2) := by
  rw [launchOn]
  obtain ⟨hlive, _⟩ | ⟨cause, _, _, heq⟩ | ⟨run, files, _, _, heq⟩ := start_cases h e' c command
  · rw [htold.processes, hfree] at hlive
    cases hlive
  · rw [heq]
    exact served_fallBack htold hfree _
  · rw [heq, htold.processes]
    exact .started hfree rfl

theorem served_compileSingleFile (file : Path) (configuration : String) :
    Served e .singleFile ((e.compileSingleFile h file configuration).1,
      .inl (e.compileSingleFile h file configuration).2) := by
  rw [compileSingleFile]
  cases hfree : e.isRunning .singleFile with
  | true => exact .busy hfree
  | false =>
    rw [if_neg Bool.false_ne_true]
    dsimp only
    split
    · exact served_fallBack (told_start e _) hfree _
    · exact served_launchOn h ((told_start e _).tell _) hfree _

theorem served_buildSelection (names : List String) (configuration : String) (clean : Bool) :
    Served e .selection ((e.buildSelection h names configuration clean).1,
      .inl (e.buildSelection h names configuration clean).2) := by
  rw [buildSelection]
  cases hfree : e.isRunning .selection with
  | true => exact .busy hfree
  | false =>
    have htold := told_start e e.files
    rw [if_neg Bool.false_ne_true]
    dsimp only
    split
    · exact served_fallBack htold hfree _
    · split
      · exact served_fallBack htold hfree _
      -- The messages about single projects come before the fall back or the start.
      · split
        · exact served_fallBack (htold.tell _) hfree _
        · exact served_launchOn h ((htold.tell _).tell _) hfree _

theorem served_debugStartup (project configuration : String) (f : FollowUp) :
    Served e .startup (e.debugStartup h project configuration f) := by
  have hbegun := debugBegun h e project configuration f
  generalize e.debugStartup h project configuration f = result at hbegun
  cases hbegun with
  | busy live => exact .busy live
  | unprepared _ processes _ _ _ free output => exact .fellBack free processes output
  | unlaunched _ _ processes _ _ _ free output => exact .fellBack free processes output
  | waits free _ _ processes => exact .waits free processes

/-- Every request comes out in one of these ways. -/
theorem served (e : Engine) (request : CommandRequest) :
    Served e request.channel (e.serve h request) := by
  cases request with
  | compile file configuration => exact served_compileSingleFile h file configuration
  | build projects configuration clean => exact served_buildSelection h projects configuration clean
  | debug project configuration f => exact served_debugStartup h project configuration f

variable {result : Engine × (Outcome ⊕ Completion)}

/-- A request is refused exactly when its channel has a live process. -/
theorem Served.busy_iff (hserved : Served e c result) (d : Channel) :
    result.2 = .inl (.busy d) ↔ d = c ∧ e.processes.isLive c = true := by
  cases hserved with
  | busy live =>
    constructor
    · rintro ⟨⟩
      exact ⟨rfl, live⟩
    · rintro ⟨rfl, _⟩
      rfl
  | fellBack free | started free | waits free => simp [free]

/-- A request on a channel with a live process changes nothing. -/
theorem Served.eq_of_isLive (hserved : Served e c result)
    (hlive : e.processes.isLive c = true) : result.1 = e := by
  cases hserved with
  | busy => rfl
  | fellBack free | started free | waits free => cases hlive.symm.trans free

/-- A request that falls back changes no process, and tells the sink so last. -/
theorem Served.of_fallback (hserved : Served e c result) {reason : EngineError}
    (hfell : result.2 = .inl (.fallback reason)) :
    result.1.processes = e.processes ∧
      ∃ told, result.1.output = e.output ++ told ++ reason.report := by
  cases hserved with
  | fellBack _ processes output =>
    cases hfell
    exact ⟨processes, output⟩
  | busy | started | waits => cases hfell

end Engine

namespace Session

variable (h : Host) (s : Session)

theorem begin_call (request : CommandRequest) :
    s.begin h request.call =
      ({ s with engine := (s.engine.serve h request).1 },
        (s.engine.serve h request).2.map .outcome .unitRun) := by
  cases request with
  | compile | build => rfl
  | debug project configuration f =>
    rw [CommandRequest.call, begin, Engine.serve]
    cases (s.engine.debugStartup h project configuration f).2 <;> rfl

theorem runCommand_eq (request : CommandRequest) :
    s.runCommand h request =
      ({ s with engine := (s.engine.serve h request).1 },
        (s.engine.serve h request).2.map (fun outcome => .decision (.ofOutcome outcome))
          .interceptRun) := by
  cases request with
  | compile | build => rfl
  | debug project configuration f =>
    rw [runCommand, Engine.serve]
    cases (s.engine.debugStartup h project configuration f).2 <;> rfl

end Session

namespace Interleaving

variable {h : Host} {x : Interleaving} {place : Nat}

/-- A request for debugging that waits is answered by the end of its process, whatever else
happens. -/
theorem unitRun_run {completion : Completion} {answer : Answer}
    (hcall : x.calls[place]? = some (.inr (.unitRun completion))) (events : List Event)
    (hanswer : (x.run h events).calls[place]? = some (.inl answer)) :
    ∃ state followUpFired, answer = .outcome (.completed state followUpFired) := by
  have hstage : (x.run h events).calls[place]? = some (.inr (.unitRun completion)) ∨
      ∃ state followUpFired, (x.run h events).calls[place]? =
        some (.inl (.outcome (.completed state followUpFired))) := by
    refine run_invariant (P := fun y => y.calls[place]? = some (.inr (.unitRun completion)) ∨
      ∃ state followUpFired, y.calls[place]? =
        some (.inl (.outcome (.completed state followUpFired)))) (fun y e _ hy => ?_) (.inl hcall)
    obtain hwaits | ⟨state, followUpFired, hended⟩ := hy
    · by_cases he : e = .resume place
      · subst he
        obtain heq | ⟨task, htask, hreleased, _⟩ := next_resume_cases h y place
        · exact .inl (by rw [heq, hwaits])
        · cases hwaits.symm.trans htask
          exact .inr ⟨_, _, getElem?_calls_resume htask hreleased⟩
      · have hlt := (List.getElem?_eq_some_iff.1 hwaits).1
        exact .inl ((getElem?_calls_next hlt he).trans hwaits)
    · exact .inr ⟨state, followUpFired, answered_next hended e⟩
  obtain hwaits | ⟨state, followUpFired, hended⟩ := hstage
  · cases hwaits.symm.trans hanswer
  · cases hended.symm.trans hanswer
    exact ⟨state, followUpFired, rfl⟩

/-- What the call of a request is answered, if it is not the end of a process, is what the request
has come out as when it was made. -/
theorem answer_request_iff (h : Host) (x : Interleaving) (request : CommandRequest)
    (events : List Event) {outcome : Outcome}
    (hnot : ∀ state followUpFired, outcome ≠ .completed state followUpFired) :
    ((x.next h (.call request.call)).run h events).calls[x.calls.length]? =
        some (.inl (.outcome outcome)) ↔
      (x.session.engine.serve h request).2 = .inl outcome := by
  have hnew : (x.next h (.call request.call)).calls[x.calls.length]? =
      some (x.session.begin h request.call).2 := List.getElem?_concat_length
  rw [Session.begin_call] at hnew
  cases hserve : (x.session.engine.serve h request).2 with
  | inl ended =>
    rw [hserve] at hnew
    rw [answered_run hnew events]
    simp
  -- A request that waits is answered by the end of its process.
  | inr completion =>
    rw [hserve] at hnew
    refine ⟨fun hanswer => ?_, nofun⟩
    obtain ⟨state, followUpFired, heq⟩ := unitRun_run hnew events hanswer
    cases heq
    exact absurd rfl (hnot state followUpFired)

/-- A request that starts nothing leaves the running state alone. It is refused exactly if its
channel has a live process, and then nothing at all changes; when it falls back, the sink is told so
last, and every channel has the process that it had. That holds from every state, and whatever comes
after the request has been made. -/
theorem startsNothing_request (h : Host) (x : Interleaving) (request : CommandRequest)
    (events : List Event) :
    let after := x.next h (.call request.call)
    let answer := (after.run h events).calls[x.calls.length]?
    (∀ c, answer = some (.inl (.outcome (.busy c))) ↔
        c = request.channel ∧ x.processes.isLive request.channel = true) ∧
      (x.processes.isLive request.channel = true → after.session = x.session) ∧
      ∀ reason, answer = some (.inl (.outcome (.fallback reason))) →
        (∃ told, after.session.engine.output = x.session.engine.output ++ told ++
          [.writeLine ("Error: " ++ reason.message),
            .writeLine "Falling back to default build..."]) ∧
        after.processes = x.processes ∧
        ∀ c, after.processes.state c = x.processes.state c ∧
          after.processes.command? c = x.processes.command? c := by
  intro after answer
  have hserved := Engine.served h x.session.engine request
  have hsession : after.session =
      { x.session with engine := (x.session.engine.serve h request).1 } :=
    congrArg Prod.fst (Session.begin_call h x.session request)
  refine ⟨fun c => ?_, fun hlive => ?_, fun reason hfell => ?_⟩
  · have hrefused : answer = some (.inl (.outcome (.busy c))) ↔
        (x.session.engine.serve h request).2 = .inl (.busy c) :=
      answer_request_iff h x request events nofun
    rw [hrefused]
    exact hserved.busy_iff c
  · rw [hsession, hserved.eq_of_isLive hlive]
  · have hfellBack : answer = some (.inl (.outcome (.fallback reason))) ↔
        (x.session.engine.serve h request).2 = .inl (.fallback reason) :=
      answer_request_iff h x request events nofun
    obtain ⟨hprocesses, houtput⟩ := hserved.of_fallback (hfellBack.1 hfell)
    have hsame : after.processes = x.processes := by rw [processes, hsession, hprocesses, processes]
    rw [hsame, hsession]
    exact ⟨houtput, rfl, fun _ => ⟨rfl, rfl⟩⟩

end Interleaving

end SoloBuild
