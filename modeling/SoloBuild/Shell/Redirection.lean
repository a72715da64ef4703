import SoloBuild.Shell.Condition
import SoloBuild.Shell.Effect
import SoloBuild.Shell.State

/-!
# Redirections

What a redirection opens, and what becomes of the descriptors afterwards.
-/

namespace SoloBuild.Shell

/-- What is said about a file that cannot be opened, created or started. -/
def openingText (missing : String) : OsError → String
  | .notFound | .notADirectory => missing
  | e => errorText e

/-- The descriptor that a target names; a dash names none. -/
def duplicated? (target : String) : Option (Option Nat) :=
  match target.toList with
  | ['-'] => some none
  | [d] => if d.isDigit then some (some (Text.digitValue d)) else none
  | _ => none

/-- The descriptor that a device stands for. -/
def deviceDescriptor? (path : String) : Option Nat :=
  [("/dev/stdin", 0), ("/dev/stdout", 1), ("/dev/stderr", 2), ("/dev/fd/0", 0), ("/dev/fd/1", 1),
    ("/dev/fd/2", 2)].lookup path

namespace State

/-- Lets a descriptor lead to what another one is open on. -/
def duplicate (st : State) (descriptor source : Nat) : Except String State :=
  match st.channels.find? source with
  | some (number, _) => .ok { st with channels := st.channels.point descriptor (some number) }
  | none => .error (toString source ++ ": Bad file descriptor")

/-- Opens a channel under a descriptor. -/
def openOn (st : State) (descriptor : Nat) (channel : Channel) : State :=
  { st with channels := st.channels.openOn descriptor channel }

/-- The devices that can be opened. -/
def deviceChannel? (path : String) : Option Channel :=
  [("/dev/null", Channel.null), ("/dev/tty", .null), ("/dev/zero", .zeros)].lookup path

/-- Opens a file to be read. -/
def openToRead (st : State) (descriptor : Nat) (target : String) : Except String State :=
  match st.files.find (pathOf target) true with
  | .ok ⟨place, some _⟩ => .ok (st.openOn descriptor (.file place 0 .read))
  | .ok ⟨_, none⟩ => .error ("cannot open " ++ target ++ ": No such file")
  | .error e => .error ("cannot open " ++ target ++ ": " ++ openingText "No such file" e)

/-- Opens a file to be written, which is made if it is missing. What it held goes away unless it is
kept. -/
def openToWrite (st : State) (descriptor : Nat) (target : String) (access : Access)
    (keeps mayReplace : Bool) : Except String State :=
  let fail (text : String) : Except String State :=
    .error ("cannot create " ++ target ++ ": " ++ text)
  match st.files.placeToWrite (pathOf target) with
  | .error e => fail (openingText "Directory nonexistent" e)
  | .ok place =>
    match st.files.node? place with
    | some (.file content executable) =>
      if !mayReplace then fail "File exists"
      else
        let content := if keeps then content else ByteArray.empty
        let files := st.files.put place (.file content executable)
        .ok ({ st with files }.openOn descriptor (.file place 0 access))
    | _ =>
      let files := st.files.put place (.file ByteArray.empty false)
      .ok ({ st with files }.openOn descriptor (.file place 0 access))

/-- Carries out a redirection to something with a name. -/
def redirect (st : State) (descriptor : Nat) (kind : RedirectKind) (target : String) :
    Except String State :=
  match kind, duplicated? target, deviceDescriptor? target, deviceChannel? target with
  | .duplicate, some none, _, _ =>
    .ok { st with channels := st.channels.point descriptor none }
  | .duplicate, some (some source), _, _ =>
    if source = descriptor then .ok st else st.duplicate descriptor source
  | _, _, some source, _ => st.duplicate descriptor source
  | _, _, _, some channel => .ok (st.openOn descriptor channel)
  | .read, _, _, _ => st.openToRead descriptor target
  | .append, _, _, _ => st.openToWrite descriptor target .append true true
  | .readWrite, _, _, _ => st.openToWrite descriptor target .both true true
  | .clobber, _, _, _ => st.openToWrite descriptor target .write false true
  | _, _, _, _ => st.openToWrite descriptor target .write false (!st.isOn "noclobber")

/-- Lets descriptors lead again to where they led before. -/
def restored (st before : State) (descriptors : List Nat) : State :=
  let back (cs : Channels) (d : Nat) : Channels := cs.point d (before.channels.descriptors.lookup d)
  { st with channels := (descriptors.foldl back st.channels).tidied before.channels.next }

end State

end SoloBuild.Shell
