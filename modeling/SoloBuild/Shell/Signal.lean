import SoloBuild.Text.Digits

/-!
# Signals

The names and numbers of signals, what they do to a process that does not expect them, and what is
told about a process that they have ended.
-/

namespace SoloBuild.Shell

open Text

/-- The names of signals in the order of their numbers. The end of a script counts as number
zero. -/
def signalNames : List String :=
  ["EXIT", "HUP", "INT", "QUIT", "ILL", "TRAP", "ABRT", "BUS", "FPE", "KILL", "USR1", "SEGV",
    "USR2", "PIPE", "ALRM", "TERM", "16", "CHLD", "CONT", "STOP", "TSTP", "TTIN", "TTOU", "URG",
    "XCPU", "XFSZ", "VTALRM", "PROF", "WINCH", "IO", "PWR", "SYS", "32", "33", "RTMIN"] ++
  (List.range 15).map (fun i => "RTMIN+" ++ toString (i + 1)) ++
  (List.range 14).map (fun i => "RTMAX-" ++ toString (14 - i)) ++ ["RTMAX"]

/-- The texts for signals that a process was ended by. -/
def signalTexts : List (Nat × String) :=
  [(1, "Hangup"), (3, "Quit"), (4, "Illegal instruction"), (5, "Trace/breakpoint trap"),
    (6, "Aborted"), (7, "Bus error"), (8, "Floating point exception"), (9, "Killed"),
    (10, "User defined signal 1"), (11, "Segmentation fault"), (12, "User defined signal 2"),
    (14, "Alarm clock"), (15, "Terminated"), (16, "Stack fault"), (24, "CPU time limit exceeded"),
    (25, "File size limit exceeded"), (26, "Virtual timer expired"),
    (27, "Profiling timer expired"), (29, "I/O possible"), (30, "Power failure"),
    (31, "Bad system call")]

/-- What a signal does to a process that does not expect it. -/
inductive Reaction where
  | nothing
  | ends
  /-- The process stops, and does not go on by itself. -/
  | stops
  deriving DecidableEq, Repr

namespace Signal

/-- What is told about a process that a signal has ended, for the signals that are told about. -/
def text? (signal : Nat) : Option String :=
  if 34 ≤ signal then some ("Real-time signal " ++ toString (signal - 34))
  else signalTexts.lookup signal

/-- What a signal does to a process that does not expect it. -/
def reaction (signal : Nat) : Reaction :=
  if [0, 17, 18, 23, 28].contains signal then .nothing
  else if [19, 20, 21, 22].contains signal then .stops
  else .ends

/-- The signal with a number, or with a name from some number on. -/
def ofText? (least : Nat) (text : String) : Option Nat :=
  let cs := text.toList
  if !cs.isEmpty && cs.all Char.isDigit then
    if decimal cs < signalNames.length then some (decimal cs) else none
  else
    let name := cs.map Char.toUpper
    (signalNames.drop least).findIdx? (fun n => n.toList == name) |>.map (· + least)

end Signal

end SoloBuild.Shell
