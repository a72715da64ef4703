import SoloBuild.FileTree.Files
import SoloBuild.Process.Run

/-!
# Channels

What the descriptors of a process are open on. Two descriptors may be open on one channel, and then
share how far it is read or written.
-/

namespace SoloBuild.Shell

/-- Where bytes leave a script. -/
inductive Outlet where
  | stdout
  | stderr
  /-- A pipe, or the reader of a command's output. -/
  | pipe (number : Nat)
  deriving DecidableEq, Repr

/-- What may be done with an open file. -/
inductive Access where
  | read
  | write
  | append
  | both
  deriving DecidableEq, Repr

/-- What a descriptor is open on. -/
inductive Channel where
  | outlet (outlet : Outlet)
  /-- Bytes that are left to be read. -/
  | bytes (rest : List UInt8)
  /-- A file, and how far it is read or written. -/
  | file (place : Location) (offset : Nat) (access : Access)
  /-- The device that holds nothing and keeps nothing. -/
  | null
  /-- The device that holds nothing but zeros. -/
  | zeros
  deriving DecidableEq, Repr

/-- The channels that are open, by number, and which of them the descriptors are open on. -/
structure Channels where
  opened : List (Nat × Channel) := []
  descriptors : List (Nat × Nat) := []
  /-- The number of the next channel. -/
  next : Nat := 0
  deriving Repr

namespace Channels

/-- The channel that a descriptor is open on. -/
def find? (cs : Channels) (descriptor : Nat) : Option (Nat × Channel) :=
  (cs.descriptors.lookup descriptor).bind fun number =>
    (cs.opened.lookup number).map fun channel => (number, channel)

/-- A channel in a new state. -/
def put (cs : Channels) (number : Nat) (channel : Channel) : Channels :=
  { cs with opened := cs.opened.map fun entry =>
      if entry.1 = number then (number, channel) else entry }

/-- A descriptor made to lead to a channel that is open, or to none. -/
def point (cs : Channels) (descriptor : Nat) (number : Option Nat) : Channels :=
  let others := cs.descriptors.filter fun entry => entry.1 != descriptor
  { cs with
    descriptors := match number with
      | some number => (descriptor, number) :: others
      | none => others }

/-- A channel opened under a descriptor. -/
def openOn (cs : Channels) (descriptor : Nat) (channel : Channel) : Channels :=
  { cs with opened := (cs.next, channel) :: cs.opened, next := cs.next + 1 }.point descriptor
    (some cs.next)

/-- The channels without those opened since some number that no descriptor leads to any more. -/
def tidied (cs : Channels) (since : Nat) : Channels :=
  { cs with opened := cs.opened.filter fun entry =>
      entry.1 < since || cs.descriptors.any fun d => d.2 == entry.1 }

/-- The outlets that the descriptors lead to. -/
def outlets (cs : Channels) : List Outlet :=
  cs.descriptors.filterMap fun (descriptor, _) =>
    match cs.find? descriptor with
    | some (_, .outlet o) => some o
    | _ => none

/-- The channels of a process that writes to its two outputs and has nothing to read. -/
def standard : Channels :=
  ((({} : Channels).openOn 0 .null).openOn 1 (.outlet .stdout)).openOn 2 (.outlet .stderr)

end Channels

end SoloBuild.Shell
