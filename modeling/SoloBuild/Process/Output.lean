import SoloBuild.Process.Sink
import SoloBuild.Text.Utf8

/-!
# Forwarding output

A process writes bytes, in pieces of any size, to two streams. A reader of each stream forwards
whole lines to the sink, one write for each; a line is read as UTF-8, loses the carriage returns at
its end, and gets a newline. What follows the last newline is a line once the stream has ended.

- `LineReader.feed_append`: how a stream is cut into pieces does not matter;
- `linesOf_append_newline`: the lines of a stream are those before a newline and those after it.
-/

namespace SoloBuild

open Text

/-- The newline byte. -/
def newlineByte : UInt8 := 0x0A

/-- A text without the line breaks at its end. -/
def trimLineBreaks (cs : List Char) : List Char :=
  (cs.reverse.dropWhile fun c => c == '\n' || c == '\r').reverse

/-- The write that forwards a line. -/
def forwardLine (line : List UInt8) : SinkCall :=
  .writeLine (String.ofList (trimLineBreaks (decodeLossy line)))

/-- A reader between two pieces of a stream: the bytes since the last newline, the latest first. -/
structure LineReader where
  pending : List UInt8 := []
  deriving DecidableEq, Repr

namespace LineReader

/-- The bytes since the last newline. -/
def line (r : LineReader) : List UInt8 := r.pending.reverse

/-- Reads a piece: the lines that it ends, and the reader after it. -/
def feed (r : LineReader) : List UInt8 → List (List UInt8) × LineReader
  | [] => ([], r)
  | b :: bs =>
    if b = newlineByte then
      let fed := feed {} bs
      (r.line :: fed.1, fed.2)
    else feed { pending := b :: r.pending } bs

/-- What is left at the end of the stream is a line, unless it is empty. -/
def finish (r : LineReader) : List (List UInt8) :=
  if r.pending.isEmpty then [] else [r.line]

/-- How a stream is cut into pieces does not matter. -/
theorem feed_append (r : LineReader) (xs ys : List UInt8) :
    r.feed (xs ++ ys) =
      ((r.feed xs).1 ++ ((r.feed xs).2.feed ys).1, ((r.feed xs).2.feed ys).2) := by
  induction xs generalizing r with
  | nil => simp [feed]
  | cons b bs ih =>
    by_cases h : b = newlineByte
    · simp [feed, h, ih]
    · simp [feed, h, ih]

/-- Without a newline nothing but the pending bytes changes. -/
theorem feed_of_not_mem {r : LineReader} {bytes : List UInt8} (h : newlineByte ∉ bytes) :
    r.feed bytes = ([], ⟨bytes.reverse ++ r.pending⟩) := by
  induction bytes generalizing r with
  | nil => simp [feed]
  | cons b bs ih =>
    simp only [List.mem_cons, not_or] at h
    have hb : ¬b = newlineByte := fun e => h.1 e.symm
    simp [feed, hb, ih h.2]

end LineReader

/-- The lines of a stream that has ended. -/
def linesOf (bytes : List UInt8) : List (List UInt8) :=
  let fed := LineReader.feed {} bytes
  fed.1 ++ fed.2.finish

/-- The lines of a stream so far, while it has not ended. -/
def completeLinesOf (bytes : List UInt8) : List (List UInt8) :=
  (LineReader.feed {} bytes).1

/-- The lines of a stream are those before a newline and those after it. -/
theorem linesOf_append_newline (xs ys : List UInt8) (h : newlineByte ∉ xs) :
    linesOf (xs ++ newlineByte :: ys) = xs :: linesOf ys := by
  simp [linesOf, LineReader.feed_append, LineReader.feed_of_not_mem h, LineReader.feed,
    LineReader.line]

end SoloBuild
