import Mathlib.Logic.Function.Basic
import SoloBuild.Proofs.DecodedLines
import SoloBuild.Proofs.Interleaving

/-!
# Output before the end

A process writes to two streams, and each has a reader that forwards its lines. Bytes are written
whenever the process likes, a reader takes as many of those that wait as it gets, and the readers
and the supervisor take turns in any order. When the process has ended by itself, the supervisor
waits for one reader after the other, each for a limited time, and publishes the end of the process
then. A list of steps is one such order: a step that is not possible changes nothing.

When no reader fails, and none is given up, the end of the process is published after every line of
both streams has been forwarded.

## Key results

- `Reading.next`: what a reader has forwarded, and what is left of its stream
- `forwards_run`: which readers have ended, and when the end of the process is published
- `exists_exited`: the end of a process that ends by itself is published at last
- `ProcessRun.forwarded_of_endsInTime`: what a process forwards whose streams end in time
- `forwarding_run`: all of this together
-/

namespace SoloBuild

/-- All bytes that are written to a stream. -/
def OutputStream.bytes (s : OutputStream) : List UInt8 :=
  s.pieces.flatMap (·.bytes)

/-- An output stream of a process, by its name. -/
inductive OutputSource where
  | stdout
  | stderr
  deriving DecidableEq, Repr

def OutputSource.stream (run : ProcessRun) : OutputSource → OutputStream
  | stdout => run.stdout
  | stderr => run.stderr

/-! ## One stream -/

/-- A stream between its process and its reader. -/
structure Pipe where
  /-- What is still to be written. -/
  coming : List UInt8
  /-- What is written, and not read yet. -/
  waiting : List UInt8 := []
  /-- Nobody can write any more. -/
  closed : Bool := false
  reader : LineReader := {}
  /-- The reader has ended. -/
  ended : Bool := false
  deriving DecidableEq, Repr

/-- What happens to a stream. -/
inductive PipeStep where
  /-- So many more bytes are written. -/
  | write (count : Nat)
  | close
  /-- The reader takes so many bytes, if as many wait. -/
  | read (count : Nat)
  /-- The reader sees the end of the stream. -/
  | finish
  /-- The reader cannot read on. -/
  | fail
  deriving DecidableEq, Repr

namespace Pipe

/-- The stream after a step, and the lines that are forwarded in it. -/
def next (p : Pipe) : PipeStep → Pipe × List (List UInt8)
  | .write count =>
    ({ p with
        coming := p.coming.drop count
        waiting := p.waiting ++ p.coming.take count }, [])
  | .close => if p.coming = [] then ({ p with closed := true }, []) else (p, [])
  | .read count =>
    if p.ended then (p, [])
    else
      let fed := p.reader.feed (p.waiting.take count)
      ({ p with waiting := p.waiting.drop count, reader := fed.2 }, fed.1)
  | .finish =>
    if p.closed ∧ p.waiting = [] ∧ p.ended = false then ({ p with ended := true }, p.reader.finish)
    else (p, [])
  -- What the reader has of an unfinished line is lost.
  | .fail => ({ p with ended := true }, [])

/-- The stream after some steps, and the lines that are forwarded in them. -/
def run (p : Pipe) : List PipeStep → Pipe × List (List UInt8)
  | [] => (p, [])
  | step :: steps =>
    let moved := p.next step
    let rest := moved.1.run steps
    (rest.1, moved.2 ++ rest.2)

/-- A reader that has ended does not begin again. -/
theorem ended_next {p : Pipe} (h : p.ended = true) (step : PipeStep) :
    (p.next step).1.ended = true := by
  cases step with
  | write => exact h
  | close =>
    rw [next]
    split <;> exact h
  | read =>
    rw [next, if_pos h]
    exact h
  | finish =>
    rw [next]
    split
    · rfl
    · exact h
  | fail => rfl

/-- The steps that bring a stream to its end. -/
def finishing (p : Pipe) : List PipeStep :=
  [.write p.coming.length, .close, .read (p.waiting ++ p.coming).length, .finish]

/-- A stream is brought to its end, and what has not been read of it is forwarded. -/
theorem run_finishing (p : Pipe) :
    (p.run p.finishing).1.ended = true ∧
      (p.ended = false →
        (p.run p.finishing).2 =
          (p.reader.feed (p.waiting ++ p.coming)).1 ++
            (p.reader.feed (p.waiting ++ p.coming)).2.finish) := by
  obtain ⟨coming, waiting, closed, reader, ended⟩ := p
  cases ended <;> simp [finishing, run, next, List.take_of_length_le]

end Pipe

/-- What a reader has forwarded of a stream, and what is left of the stream, as long as the reader
has not failed. -/
inductive Reading (bytes : List UInt8) : Pipe → List SinkCall → Prop
  | on {taken waiting coming : List UInt8} {closed : Bool} {lines : List (List UInt8)}
      {reader : LineReader} (split : bytes = taken ++ (waiting ++ coming))
      (last : closed = true → coming = []) (fed : LineReader.feed {} taken = (lines, reader)) :
    Reading bytes { coming, waiting, closed, reader } (lines.map forwardLine)
  | done {reader : LineReader} :
    Reading bytes { coming := [], closed := true, reader, ended := true }
      ((linesOf bytes).map forwardLine)

namespace Reading

variable {bytes : List UInt8} {p : Pipe} {sent : List SinkCall}

theorem next (h : Reading bytes p sent) {step : PipeStep} (hstep : step ≠ .fail) :
    Reading bytes (p.next step).1 (sent ++ (p.next step).2.map forwardLine) := by
  cases h with
  | @on taken waiting coming closed lines reader split last fed =>
    cases step with
    | write count =>
      rw [Pipe.next, List.map_nil, List.append_nil]
      refine .on ?_ (fun hclosed => ?_) fed
      · rw [split, List.append_assoc, List.take_append_drop]
      · rw [last hclosed, List.drop_nil]
    | close =>
      rw [Pipe.next]
      split
      · next hcoming => simpa using .on split (fun _ => hcoming) fed
      · simpa using .on split last fed
    | read count =>
      rw [Pipe.next, if_neg Bool.false_ne_true]
      have hfed : LineReader.feed {} (taken ++ waiting.take count) =
          (lines ++ (reader.feed (waiting.take count)).1,
            (reader.feed (waiting.take count)).2) := by
        rw [LineReader.feed_append, fed]
      dsimp only
      rw [← List.map_append]
      refine .on ?_ last hfed
      rw [split, List.append_assoc, ← List.append_assoc (waiting.take count),
        List.take_append_drop]
    | finish =>
      rw [Pipe.next]
      split
      -- The stream has ended, and all of it is read.
      · next hend =>
        obtain ⟨hclosed, rfl, _⟩ := hend
        cases last hclosed
        have hall : linesOf bytes = lines ++ reader.finish := by
          rw [split, List.append_nil, List.append_nil, linesOf, fed]
        rw [← List.map_append, ← hall]
        cases hclosed
        exact .done
      · simpa using .on split last fed
    | fail => exact absurd rfl hstep
  | done =>
    cases step with
    | write | close | read | finish => simpa [Pipe.next] using .done
    | fail => exact absurd rfl hstep

/-- What a reader has forwarded is the beginning of what it is to forward. -/
theorem isPrefix (h : Reading bytes p sent) : sent <+: (linesOf bytes).map forwardLine := by
  cases h with
  | @on taken waiting coming _ lines reader split _ fed =>
    refine List.IsPrefix.map forwardLine ?_
    rw [split, linesOf, LineReader.feed_append, fed, List.append_assoc]
    exact List.prefix_append _ _
  | done => exact List.prefix_rfl

theorem eq_of_ended (h : Reading bytes p sent) (hended : p.ended = true) :
    sent = (linesOf bytes).map forwardLine := by
  cases h with
  | on => cases hended
  | done => rfl

end Reading

/-! ## A process and its readers -/

/-- The end of a process that ends by itself is published only when its output has been waited
for. -/
theorem SupervisorStep.exited_of_apply {step : SupervisorStep} {p : BuildProcess}
    {code : Option Int32} (h : (step.apply p).state = .exited code) :
    p.state = .exited code ∨ step = .drained := by
  obtain ⟨_, _, _, supervision, killRequested⟩ := p
  cases step <;> cases supervision <;> cases killRequested <;>
    first | exact .inr rfl | exact .inl h | cases h

/-- A process with its streams. -/
structure Forwarding where
  process : BuildProcess
  pipe : OutputSource → Pipe
  /-- Whose readers the supervisor has not waited for. -/
  awaited : List OutputSource := [.stdout, .stderr]
  /-- What the sink was told, and for which stream. -/
  output : List (OutputSource × SinkCall) := []

/-- What happens to a process with its streams. -/
inductive ForwardingStep where
  | pipe (source : OutputSource) (step : PipeStep)
  | supervise (step : SupervisorStep)
  /-- Somebody asks for the end of the process. -/
  | askToEnd
  /-- The reader that the supervisor waits for has ended. -/
  | join
  /-- The reader that the supervisor waits for has had its time. -/
  | giveUp
  deriving DecidableEq, Repr

/-- No reader fails in this step, and none is given up. -/
def ForwardingStep.isRegular : ForwardingStep → Bool
  | pipe _ .fail | giveUp => false
  | pipe .. | supervise _ | askToEnd | join => true

namespace Forwarding

/-- A process that was started just now. -/
def start (p : BuildProcess) : Forwarding where
  process := p
  pipe source := { coming := (source.stream p.run).bytes }

/-- The process has ended by itself, and its output is waited for. -/
def isDraining (x : Forwarding) : Bool :=
  match x.process.supervision with
  | .draining _ => true
  | _ => false

/-- The supervisor waits for the next reader. -/
def passReader (x : Forwarding) : Forwarding :=
  { x with awaited := x.awaited.tail }

/-- What a step does. -/
def next (x : Forwarding) : ForwardingStep → Forwarding
  | .pipe source step =>
    let moved := (x.pipe source).next step
    { x with
      pipe := Function.update x.pipe source moved.1
      output := x.output ++ moved.2.map fun line => (source, forwardLine line) }
  | .supervise step =>
    -- The end of a process is not published before its readers have been waited for.
    if step = .drained ∧ x.awaited ≠ [] then x else { x with process := step.apply x.process }
  | .askToEnd => { x with process.killRequested := true }
  | .join =>
    if x.isDraining ∧ x.awaited.head?.all fun source => (x.pipe source).ended then x.passReader
    else x
  | .giveUp => if x.isDraining then x.passReader else x

def run (x : Forwarding) (steps : List ForwardingStep) : Forwarding :=
  steps.foldl next x

/-- What the sink was told for one stream. -/
def writesFrom (x : Forwarding) (source : OutputSource) : List SinkCall :=
  (x.output.filter fun write => write.1 == source).map (·.2)

variable {x : Forwarding} {step : ForwardingStep} {source other : OutputSource}

@[simp] theorem run_nil : x.run [] = x := rfl

@[simp] theorem run_cons (steps : List ForwardingStep) :
    x.run (step :: steps) = (x.next step).run steps := rfl

theorem run_append (steps more : List ForwardingStep) :
    x.run (steps ++ more) = (x.run steps).run more :=
  List.foldl_append

/-- Steps of one stream change nothing but that stream, and what the sink was told. -/
theorem run_pipe (x : Forwarding) (source : OutputSource) (steps : List PipeStep) :
    x.run (steps.map (.pipe source)) =
      { x with
        pipe := Function.update x.pipe source ((x.pipe source).run steps).1
        output := x.output ++
          ((x.pipe source).run steps).2.map fun line => (source, forwardLine line) } := by
  induction steps generalizing x with
  | nil => simp [Pipe.run]
  | cons step steps ih => simp [Pipe.run, next, ih]

theorem pipe_next (x : Forwarding) (source : OutputSource) (step : PipeStep) :
    (x.next (.pipe source step)).pipe source = ((x.pipe source).next step).1 :=
  Function.update_self ..

theorem pipe_next_of_ne (h : other ≠ source) (x : Forwarding) (step : PipeStep) :
    (x.next (.pipe source step)).pipe other = x.pipe other :=
  Function.update_of_ne h ..

theorem writesFrom_next_pipe (x : Forwarding) (source other : OutputSource) (step : PipeStep) :
    (x.next (.pipe source step)).writesFrom other =
      x.writesFrom other ++
        if source = other then ((x.pipe source).next step).2.map forwardLine else [] := by
  rw [writesFrom, writesFrom, next, List.filter_append, List.map_append, List.filter_map]
  by_cases hother : source = other
  · simp [hother, Function.comp_def]
  · simp [hother, Function.comp_def]

/-- What holds of a process and its readers, as long as no reader fails and none is given up. -/
structure Forwards (run : ProcessRun) (x : Forwarding) : Prop where
  reading : ∀ source, Reading (source.stream run).bytes (x.pipe source) (x.writesFrom source)
  awaited : ∀ source, source ∉ x.awaited → (x.pipe source).ended = true
  length : x.awaited.length ≤ 2
  published : ∀ code, x.process.state = .exited code → x.awaited = []

theorem forwards_start {p : BuildProcess} (hp : p.supervision = .watching) :
    Forwards p.run (start p) where
  reading source := @Reading.on _ [] [] _ false [] {} rfl nofun rfl
  awaited source hsource := by cases source <;> simp [start] at hsource
  length := Nat.le_refl 2
  published code hcode := by
    rw [BuildProcess.state, start, hp] at hcode
    cases hcode

theorem Forwards.next_pipe {run : ProcessRun} (hx : Forwards run x) {step : PipeStep}
    (hstep : step ≠ .fail) : Forwards run (x.next (.pipe source step)) := by
  refine ⟨fun other => ?_, fun other hother => ?_, hx.length, hx.published⟩
  · rw [writesFrom_next_pipe]
    by_cases h : source = other
    · subst h
      rw [if_pos rfl, pipe_next]
      exact (hx.reading source).next hstep
    · rw [if_neg h, List.append_nil, pipe_next_of_ne (Ne.symm h)]
      exact hx.reading other
  · by_cases h : source = other
    · subst h
      rw [pipe_next]
      exact Pipe.ended_next (hx.awaited source hother) step
    · rw [pipe_next_of_ne (Ne.symm h)]
      exact hx.awaited other hother

theorem state_of_isDraining (h : x.isDraining = true) : x.process.state = .running := by
  rw [isDraining] at h
  rw [BuildProcess.state]
  cases hsupervision : x.process.supervision with
  | draining => rfl
  | watching | killing | exited | killed => rw [hsupervision] at h; cases h

theorem Forwards.next {run : ProcessRun} (hx : Forwards run x) (hstep : step.isRegular = true) :
    Forwards run (x.next step) := by
  cases step with
  | pipe source step => exact hx.next_pipe fun heq => by rw [heq] at hstep; cases hstep
  | supervise step =>
    rw [Forwarding.next]
    split
    · exact hx
    · next hready =>
      refine ⟨hx.reading, hx.awaited, hx.length, fun code hcode => ?_⟩
      obtain hexited | rfl := SupervisorStep.exited_of_apply hcode
      · exact hx.published code hexited
      · exact not_not.1 fun hawaited => hready ⟨rfl, hawaited⟩
  | askToEnd => exact ⟨hx.reading, hx.awaited, hx.length, hx.published⟩
  | join =>
    rw [Forwarding.next]
    split
    · next hjoin =>
      obtain ⟨hdraining, hended⟩ := hjoin
      refine ⟨hx.reading, fun source hsource => ?_, ?_, fun code hcode => ?_⟩
      -- The reader that is not awaited any more has ended.
      · cases hawaited : x.awaited with
        | nil => exact hx.awaited source (by simp [hawaited])
        | cons head rest =>
          rw [hawaited] at hended
          rw [passReader, hawaited] at hsource
          by_cases hhead : source = head
          · rw [hhead]
            exact hended
          · exact hx.awaited source (by rw [hawaited]; simpa [hhead] using hsource)
      · exact Nat.le_trans (List.length_tail ▸ Nat.sub_le _ _) hx.length
      · cases (state_of_isDraining hdraining).symm.trans hcode
    · exact hx
  | giveUp => cases hstep

theorem forwards_run {p : BuildProcess} (hp : p.supervision = .watching)
    {steps : List ForwardingStep} (hregular : ∀ step ∈ steps, step.isRegular = true) :
    Forwards p.run ((start p).run steps) := by
  induction steps using List.reverseRecOn with
  | nil => exact forwards_start hp
  | append_singleton steps step ih =>
    rw [List.forall_mem_append] at hregular
    rw [run_append]
    exact (ih hregular.1).next (hregular.2 step (List.mem_singleton_self step))

/-! ## The end of a process -/

/-- The steps that bring both streams to their ends. -/
def finishing (x : Forwarding) : List ForwardingStep :=
  (x.pipe .stdout).finishing.map (.pipe .stdout) ++ (x.pipe .stderr).finishing.map (.pipe .stderr)

/-- The steps of a supervisor that sees its process end, and both readers. -/
def observing (code : Option Int32) : List ForwardingStep :=
  [.supervise (.observeExit code), .join, .join, .supervise .drained]

theorem run_finishing (x : Forwarding) :
    let y := x.run x.finishing
    (∀ source, (y.pipe source).ended = true) ∧ y.process = x.process ∧ y.awaited = x.awaited ∧
      y.output = x.output ++
        (((x.pipe .stdout).run (x.pipe .stdout).finishing).2.map fun line =>
          (.stdout, forwardLine line)) ++
        ((x.pipe .stderr).run (x.pipe .stderr).finishing).2.map fun line =>
          (.stderr, forwardLine line) := by
  intro y
  have hy : y = x.run x.finishing := rfl
  rw [finishing, run_append, run_pipe, run_pipe] at hy
  rw [hy]
  refine ⟨fun source => ?_, rfl, rfl, rfl⟩
  cases source with
  | stdout => exact (x.pipe .stdout).run_finishing.1
  | stderr => exact (x.pipe .stderr).run_finishing.1

theorem next_join (hdraining : x.isDraining = true)
    (hended : ∀ source, (x.pipe source).ended = true) : x.next .join = x.passReader := by
  rw [next]
  refine if_pos ⟨hdraining, ?_⟩
  cases x.awaited.head? with
  | none => rfl
  | some source => exact hended source

/-- When both readers have ended, the end of the process is published. -/
theorem run_observing {code code' : Option Int32}
    (hobserved : (x.process.observeExit code).supervision = .draining code')
    (hended : ∀ source, (x.pipe source).ended = true) (hlength : x.awaited.length ≤ 2) :
    (x.run (observing code)).process.state = .exited code' ∧
      (x.run (observing code)).output = x.output := by
  obtain ⟨process, pipe, awaited, output⟩ := x
  generalize hprocess : process.observeExit code = observed at hobserved
  have hdraining : isDraining { process := observed, pipe, awaited, output } = true := by
    rw [isDraining, hobserved]
  have hnone : awaited.tail.tail = [] := by
    rw [← List.length_eq_zero_iff, List.length_tail, List.length_tail]
    exact Nat.sub_eq_zero_of_le (Nat.sub_le_of_le_add hlength)
  have hstart : next { process, pipe, awaited, output } (.supervise (.observeExit code)) =
      { process := observed, pipe, awaited, output } := by
    rw [next, if_neg fun h => by cases h.1]
    exact congrArg (Forwarding.mk · pipe awaited output) hprocess
  have hfirst := next_join hdraining hended
  have hsecond := next_join (x := passReader { process := observed, pipe, awaited, output })
    hdraining hended
  rw [observing, run_cons, hstart, run_cons, hfirst, run_cons, hsecond, run_cons, run_nil, next,
    passReader, passReader]
  dsimp only
  rw [hnone, if_neg fun h => h.2 rfl]
  refine ⟨?_, rfl⟩
  change (BuildProcess.drained observed).state = _
  rw [BuildProcess.drained, hobserved]
  rfl

theorem regular_finishing (x : Forwarding) (code : Option Int32) :
    ∀ step ∈ x.finishing ++ observing code, step.isRegular = true := by
  simp [finishing, Pipe.finishing, observing, ForwardingStep.isRegular]

/-- Whatever has happened, the end of a process that ends by itself is published at last. -/
theorem exists_exited {run : ProcessRun} (hx : Forwards run x)
    (hends : x.process.endsByItself = true) :
    ∃ more code, (∀ step ∈ more, step.isRegular = true) ∧
      (x.run more).process.state = .exited code := by
  obtain ⟨hended, hprocess, hawaited, _⟩ := run_finishing x
  obtain ⟨code, hobserved⟩ :
      ∃ code, (x.process.observeExit none).supervision = .draining code := by
    rw [BuildProcess.endsByItself] at hends
    rw [BuildProcess.observeExit]
    cases hsupervision : x.process.supervision with
    | watching => exact ⟨none, rfl⟩
    | draining code => exact ⟨code, hsupervision⟩
    | killing | exited | killed => rw [hsupervision] at hends; cases hends
  refine ⟨_, code, regular_finishing x none, ?_⟩
  rw [run_append]
  exact (run_observing (hprocess ▸ hobserved) hended (hawaited ▸ hx.length)).1

end Forwarding

/-! ## Output that comes in time -/

/-- Both streams end, with all that is written to them, before their readers are given up. -/
def ProcessRun.EndsInTime (run : ProcessRun) (grace : Nat) : Prop :=
  ∀ source : OutputSource,
    (∀ piece ∈ (source.stream run).pieces, piece.time ≤ (source.stream run).closed) ∧
      (source.stream run).closed ≤ run.duration + grace

theorem OutputStream.linesBy_of_closed {s : OutputStream}
    (hpieces : ∀ piece ∈ s.pieces, piece.time ≤ s.closed) {time : Nat} (hclosed : s.closed ≤ time) :
    s.linesBy time = linesOf s.bytes := by
  have hall : (s.pieces.filter fun piece => piece.time ≤ time) = s.pieces :=
    List.filter_eq_self.2 fun piece hpiece => by
      simpa using Nat.le_trans (hpieces piece hpiece) hclosed
  rw [linesBy, hall, if_pos hclosed, bytes]

/-- What a process forwards whose streams end in time: all lines of the one stream, and then of the
other. -/
theorem ProcessRun.forwarded_of_endsInTime {run : ProcessRun} {grace : Nat}
    (h : run.EndsInTime grace) :
    run.forwarded grace =
      (linesOf run.stdout.bytes).map forwardLine ++ (linesOf run.stderr.bytes).map forwardLine := by
  obtain ⟨hout, houtClosed⟩ := h .stdout
  obtain ⟨herr, herrClosed⟩ := h .stderr
  simp only [OutputSource.stream] at hout houtClosed herr herrClosed
  have htime : run.stdout.closed ≤ run.observedAt grace ∧
      run.stderr.closed ≤ run.observedAt grace := by
    simp only [observedAt, OutputStream.readUntil]
    omega
  rw [forwarded, OutputStream.linesBy_of_closed hout htime.1,
    OutputStream.linesBy_of_closed herr htime.2, List.map_append]

namespace Forwarding

/-- What is true at a moment after the start of a process, when no reader has failed, and none was
given up. -/
structure Delivers (p : BuildProcess) (x : Forwarding) : Prop where
  /-- What the sink was told for a stream is the beginning of what it is to be told. -/
  inOrder : ∀ source, x.writesFrom source <+: writesOf (source.stream p.run).bytes
  /-- When the end of the process is published, the sink has been told everything. -/
  complete : ∀ code, x.process.state = .exited code →
    ∀ source, x.writesFrom source = writesOf (source.stream p.run).bytes
  /-- The end of the process is published at last, if the process ends by itself. -/
  published : x.process.endsByItself = true → ∃ more code,
    (∀ step ∈ more, step.isRegular = true) ∧ (x.run more).process.state = .exited code
  /-- A stream is read line by line as it is read as a whole. -/
  decoded : ∀ source : OutputSource, (linesOf (source.stream p.run).bytes).map Text.decodeLossy =
    Text.endedLines (Text.decodeLossy (source.stream p.run).bytes)
  /-- When both streams end in time, the order in which their lines are forwarded is one of all
  these orders. -/
  timed : ∀ grace, p.run.EndsInTime grace → ∃ steps, (∀ step ∈ steps, step.isRegular = true) ∧
    ((start p).run steps).process.state = .exited p.run.code ∧
      ((start p).run steps).output.map (·.2) = p.run.forwarded grace

/-- Output is forwarded without loss, in whatever pieces and in whatever order it is read. -/
theorem forwarding_run {p : BuildProcess} (hp : p.supervision = .watching)
    {steps : List ForwardingStep} (hregular : ∀ step ∈ steps, step.isRegular = true) :
    Delivers p ((start p).run steps) := by
  have hx := forwards_run hp hregular
  refine ⟨fun source => ?_, fun code hcode source => ?_, exists_exited hx,
    fun source => map_decodeLossy_linesOf _, fun grace hgrace => ?_⟩
  · rw [← map_forwardLine_linesOf]
    exact (hx.reading source).isPrefix
  · rw [← map_forwardLine_linesOf]
    refine (hx.reading source).eq_of_ended (hx.awaited source ?_)
    rw [hx.published code hcode]
    exact List.not_mem_nil
  -- One reader after the other forwards everything, and then the supervisor goes on.
  · obtain ⟨hended, hprocess, hawaited, houtput⟩ := run_finishing (start p)
    have hobserved :
        (((start p).run (start p).finishing).process.observeExit p.run.code).supervision =
          .draining p.run.code := by
      rw [hprocess, start, BuildProcess.observeExit, hp]
    obtain ⟨hstate, hsame⟩ := run_observing hobserved hended (hawaited ▸ Nat.le_refl 2)
    refine ⟨_, regular_finishing (start p) p.run.code, ?_⟩
    rw [run_append]
    refine ⟨hstate, ?_⟩
    rw [hsame, houtput, ProcessRun.forwarded_of_endsInTime hgrace,
      ((start p).pipe .stdout).run_finishing.2 rfl, ((start p).pipe .stderr).run_finishing.2 rfl]
    simp [start, linesOf, OutputSource.stream, Function.comp_def]

theorem forwarding_run_sample :
    let p : BuildProcess :=
      { channel := .selection
        command := { program := ⟨"build"⟩, args := [], workingDir := ⟨"/"⟩ }
        run :=
          -- A character that a newline cuts off, then carriage returns, and no newline at the end.
          { stdout.pieces := [{ time := 0, bytes := [0x61, 0xE2, 0x82, 0x0A, 0x62, 0x0D, 0x0D] }]
            stderr.pieces := [{ time := 0, bytes := [0x0A] }] } }
    let steps : List ForwardingStep :=
      [.pipe .stdout (.write 3), .pipe .stdout (.read 2), .supervise (.observeExit (some 0)),
        .pipe .stderr (.write 1), .pipe .stdout (.write 4), .pipe .stdout .close,
        .pipe .stdout (.read 3), .pipe .stderr (.read 1), .pipe .stdout (.read 2),
        .pipe .stdout .finish, .join, .supervise .drained, .pipe .stderr .close,
        .pipe .stderr .finish, .join, .supervise .drained]
    let x := (start p).run steps
    p.supervision = .watching ∧ (∀ step ∈ steps, step.isRegular = true) ∧
      x.process.state = .exited (some 0) ∧
      x.output = [(.stdout, .write "a\uFFFD\n"), (.stderr, .write "\n"), (.stdout, .write "b\n")] ∧
      Delivers p x := by
  intro p steps x
  have hregular : ∀ step ∈ steps, step.isRegular = true := by decide
  exact ⟨rfl, hregular, by decide +kernel, by decide +kernel, forwarding_run rfl hregular⟩

end Forwarding

end SoloBuild
