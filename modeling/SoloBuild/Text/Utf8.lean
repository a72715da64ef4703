/-!
# Reading bytes that need not be UTF-8

Build output is text by convention only. Here a stream of bytes is read as UTF-8 one byte at a time;
wherever it stops being UTF-8, the longest piece that could still have become a character is read
as one replacement character, and reading goes on with the byte that did not fit.

- `decodeLossy_append_newline`: a newline byte ends every unfinished character, so a stream can be
  read line by line.
-/

namespace SoloBuild.Text

/-- What is read for a piece that is no character. -/
def replacementChar : Char := '\uFFFD'

/-- Where the reader stands between two bytes. -/
inductive Utf8State where
  /-- Between characters. -/
  | start
  /-- Inside a character: the bits so far, how many bytes follow the next one, and the range the
  next byte has to be in. -/
  | inside (bits more lo hi : Nat)
  deriving DecidableEq, Repr

namespace Utf8State

/-- The first byte of a character: what is read at once, and where the reader stands after it. The
ranges of the second byte leave out overlong forms, surrogates and numbers above U+10FFFF. -/
def first (b : Nat) : List Char × Utf8State :=
  if b < 0x80 then ([Char.ofNat b], .start)
  else if 0xC2 ≤ b ∧ b ≤ 0xDF then ([], .inside (b - 0xC0) 0 0x80 0xBF)
  else if b = 0xE0 then ([], .inside 0 1 0xA0 0xBF)
  else if b = 0xED then ([], .inside 0xD 1 0x80 0x9F)
  else if 0xE1 ≤ b ∧ b ≤ 0xEF then ([], .inside (b - 0xE0) 1 0x80 0xBF)
  else if b = 0xF0 then ([], .inside 0 2 0x90 0xBF)
  else if 0xF1 ≤ b ∧ b ≤ 0xF3 then ([], .inside (b - 0xF0) 2 0x80 0xBF)
  else if b = 0xF4 then ([], .inside 4 2 0x80 0x8F)
  else ([replacementChar], .start)

/-- One byte: the characters read with it, and where the reader stands after it. -/
def step : Utf8State → Nat → List Char × Utf8State
  | .start, b => first b
  | .inside bits more lo hi, b =>
    if lo ≤ b ∧ b ≤ hi then
      let bits := bits * 64 + (b - 0x80)
      match more with
      | 0 => ([Char.ofNat bits], .start)
      | more + 1 => ([], .inside bits more 0x80 0xBF)
    else
      let (chars, state) := first b
      (replacementChar :: chars, state)

/-- At the end of the stream an unfinished character is read as a replacement character. -/
def finish : Utf8State → List Char
  | .start => []
  | .inside .. => [replacementChar]

/-- Everything read from a state to the end of the stream. -/
def run : Utf8State → List UInt8 → List Char
  | state, [] => state.finish
  | state, b :: bs =>
    let (chars, next) := state.step b.toNat
    chars ++ run next bs

end Utf8State

/-- The text of a stream of bytes, with replacement characters where it is not UTF-8. -/
def decodeLossy (bytes : List UInt8) : List Char :=
  Utf8State.start.run bytes

private theorem step_newline (state : Utf8State)
    (h : ∀ bits more lo hi, state = .inside bits more lo hi → 0x0A < lo) :
    state.step 0x0A = (state.finish ++ ['\n'], .start) := by
  cases state with
  | start => rfl
  | inside bits more lo hi =>
    have hlo := h bits more lo hi rfl
    have : ¬(lo ≤ 0x0A ∧ 0x0A ≤ hi) := by omega
    simp only [Utf8State.step, this, if_false]
    rfl

private theorem lo_of_first {b bits more lo hi : Nat} {out : List Char}
    (h : Utf8State.first b = (out, .inside bits more lo hi)) : 0x0A < lo := by
  unfold Utf8State.first at h
  repeat' split at h
  all_goals
    simp only [Prod.mk.injEq, Utf8State.inside.injEq, reduceCtorEq, and_false] at h
  all_goals omega

private theorem lo_of_step {state : Utf8State} {b bits more lo hi : Nat} {out : List Char}
    (h : state.step b = (out, .inside bits more lo hi)) : 0x0A < lo := by
  cases state with
  | start => exact lo_of_first h
  | inside bits' more' lo' hi' =>
    by_cases hb : lo' ≤ b ∧ b ≤ hi'
    · cases more' with
      | zero => simp [Utf8State.step, hb] at h
      | succ n =>
        simp only [Utf8State.step, hb, and_self, if_true, Prod.mk.injEq,
          Utf8State.inside.injEq] at h
        omega
    · simp only [Utf8State.step, hb, if_false, Prod.mk.injEq] at h
      exact lo_of_first (Prod.ext rfl h.2 : Utf8State.first b = (_, .inside bits more lo hi))

private theorem run_append_newline (state : Utf8State) (bytes rest : List UInt8)
    (h : ∀ bits more lo hi, state = .inside bits more lo hi → 0x0A < lo) :
    state.run (bytes ++ 0x0A :: rest) = state.run bytes ++ '\n' :: decodeLossy rest := by
  induction bytes generalizing state with
  | nil =>
    have := step_newline state h
    simp only [List.nil_append, Utf8State.run, decodeLossy]
    rw [show (0x0A : UInt8).toNat = 0x0A from rfl, this]
    simp
  | cons b bs ih =>
    simp only [List.cons_append, Utf8State.run]
    rw [ih _ fun bits more lo hi he => lo_of_step (Prod.ext rfl he), List.append_assoc]

/-- A newline byte ends every unfinished character: a stream can be read line by line. -/
theorem decodeLossy_append_newline (bytes rest : List UInt8) :
    decodeLossy (bytes ++ 0x0A :: rest) = decodeLossy bytes ++ '\n' :: decodeLossy rest :=
  run_append_newline .start bytes rest (by simp)

end SoloBuild.Text
