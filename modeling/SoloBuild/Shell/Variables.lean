/-!
# Variables

The variables of a shell, with what is special about each of them. Local variables hide others
until their frame is closed.
-/

namespace SoloBuild.Shell

/-- A variable. -/
structure Variable where
  /-- No value if the variable is only declared. -/
  value : Option String := none
  /-- Programs that the shell starts get the variable. -/
  exported : Bool := false
  readOnly : Bool := false
  deriving DecidableEq, Repr

/-- The variables of a shell. -/
structure Variables where
  bindings : List (String × Variable) := []
  /-- What local variables hide, the innermost frame first. -/
  frames : List (List (String × Option Variable)) := []
  deriving Repr

namespace Variables

/-- A variable that is declared. -/
def find? (vs : Variables) (name : String) : Option Variable := vs.bindings.lookup name

/-- The value of a variable. -/
def value? (vs : Variables) (name : String) : Option String := (vs.find? name).bind (·.value)

/-- The variables with one of them put in place, or taken away. -/
def put (vs : Variables) (name : String) (v : Option Variable) : Variables :=
  let others := vs.bindings.filter fun b => b.1 != name
  { vs with
    bindings := match v with
      | some v => (name, v) :: others
      | none => others }

/-- A variable may not be changed. -/
def isReadOnly (vs : Variables) (name : String) : Bool := (vs.find? name).any (·.readOnly)

/-- The variables with a value set. -/
def assign (vs : Variables) (name value : String) (exported : Bool := false) : Variables :=
  let old := (vs.find? name).getD {}
  vs.put name (some { old with value := some value, exported := old.exported || exported })

/-- The variables without a value. -/
def unset (vs : Variables) (name : String) : Variables := vs.put name none

/-- The variables with one of them exported. -/
def exporting (vs : Variables) (name : String) : Variables :=
  vs.put name (some { (vs.find? name).getD {} with exported := true })

/-- The variables with one of them that may not be changed any more. -/
def freezing (vs : Variables) (name : String) : Variables :=
  vs.put name (some { (vs.find? name).getD {} with readOnly := true })

/-- Opens a frame for local variables. -/
def opened (vs : Variables) : Variables := { vs with frames := [] :: vs.frames }

/-- Makes a variable local to the innermost frame; its value stays for now. -/
def hide (vs : Variables) (name : String) : Variables :=
  match vs.frames with
  | [] => vs
  | frame :: frames => { vs with frames := ((name, vs.find? name) :: frame) :: frames }

/-- Closes the innermost frame: what it hides comes back. -/
def closed (vs : Variables) : Variables :=
  match vs.frames with
  | [] => vs
  | frame :: frames => frame.foldl (fun vs b => vs.put b.1 b.2) { vs with frames }

/-- The rank of a variable among those that programs get to know. -/
def rank (name : String) : Nat :=
  let codes := name.toList.map Char.toNat
  (16 * codes.headD 0 + codes.foldl (· + ·) 0) % 39

/-- What programs that the shell starts get to know. -/
def environment (vs : Variables) : List (String × String) :=
  let known := vs.bindings.reverse.filterMap fun (name, v) =>
    if v.exported then v.value.map fun value => (name, value) else none
  known.mergeSort fun a b => rank a.1 ≤ rank b.1

/-- The variables that a shell gets to know when it starts. -/
def ofEnvironment (environment : List (String × String)) : Variables :=
  { bindings := environment.map fun (name, value) =>
      (name, { value := some value, exported := true }) }

end Variables

end SoloBuild.Shell
