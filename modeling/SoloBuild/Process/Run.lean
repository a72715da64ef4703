import SoloBuild.Process.Output
import SoloBuild.Process.State

/-!
# Runs of processes

What a started process does when nobody stops it: what is written to its output streams and when,
when it ends and how, and when the streams end, which may be later, because what the process has
started may hold them open. Times are milliseconds since the start.

Output counts as complete at the end of the process, except that each reader is given a limited time
after it. The readers go on meanwhile, so whatever arrives before both have been waited for is
forwarded in time.
-/

namespace SoloBuild

/-- Bytes written at some time. -/
structure OutputPiece where
  time : Nat
  bytes : List UInt8
  deriving DecidableEq, Repr

/-- An output stream. -/
structure OutputStream where
  pieces : List OutputPiece := []
  /-- When the stream ends. -/
  closed : Nat := 0
  deriving DecidableEq, Repr

/-- What a process does. -/
structure ProcessRun where
  stdout : OutputStream := {}
  stderr : OutputStream := {}
  /-- When the process ends. -/
  duration : Nat := 0
  /-- The exit code; there is none when a signal ended the process. -/
  code : Option Int32 := some 0
  deriving DecidableEq, Repr

namespace OutputStream

/-- The lines forwarded up to some time. -/
def linesBy (s : OutputStream) (time : Nat) : List (List UInt8) :=
  let bytes := (s.pieces.filter fun piece => piece.time ≤ time).flatMap (·.bytes)
  if s.closed ≤ time then linesOf bytes else completeLinesOf bytes

/-- When a reader has been waited for: at the end of the stream, or after the time it is given. -/
def readUntil (s : OutputStream) (start grace : Nat) : Nat :=
  max start (min s.closed (start + grace))

end OutputStream

namespace ProcessRun

/-- When both readers have been waited for. -/
def observedAt (run : ProcessRun) (grace : Nat) : Nat :=
  run.stderr.readUntil (run.stdout.readUntil run.duration grace) grace

/-- The writes that forward the output of a process before its end is observed. -/
def forwarded (run : ProcessRun) (grace : Nat) : List SinkCall :=
  let time := run.observedAt grace
  (run.stdout.linesBy time ++ run.stderr.linesBy time).map forwardLine

end ProcessRun

end SoloBuild
