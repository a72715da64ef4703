import SoloBuild.Toml.Datetime

/-!
# TOML values

The values of a TOML document. A table remembers how it came about, because that decides whether the
document may still add to it.
-/

namespace SoloBuild.Toml

/-- How a table came about. -/
inductive Origin where
  /-- A header of its own. -/
  | header
  /-- The header of a table inside it. -/
  | implied
  /-- A dotted key. -/
  | dotted
  /-- An inline table, which is complete as it stands. -/
  | inline
  deriving DecidableEq, Repr

/-- A TOML value. -/
inductive Value where
  | string (text : String)
  /-- An integer; one that has the form of an integer can still be no number. -/
  | integer (n : Option Int)
  /-- A float, as it is written. -/
  | float (text : String)
  | boolean (b : Bool)
  | datetime (d : Datetime)
  | array (items : List Value)
  /-- An array of tables, each from a header of its own. -/
  | tables (elements : List (List (String × Value)))
  | table (origin : Origin) (entries : List (String × Value))
  deriving Repr, Inhabited

/-- The entries of a table, in the order in which their keys were first written. -/
abbrev Table := List (String × Value)

namespace Table

/-- The value of a key. -/
def get? (t : Table) (key : String) : Option Value :=
  t.lookup key

/-- The table with a new value for a key that it has. -/
def replace (t : Table) (key : String) (value : Value) : Table :=
  t.map fun (k, v) => if k = key then (k, value) else (k, v)

/-- The table with a value for a key that it does not have. -/
def add? (t : Table) (key : String) (value : Value) : Option Table :=
  if (t.get? key).isSome then none else some (t ++ [(key, value)])

/-- Edits the table that a path of keys leads to. Tables on the way are made when they are missing;
of an array of tables the last one is meant. A path of dotted keys does not lead into a table that
has a header of its own, and no path leads into an inline table or through a plain value. -/
def edit? (dotted : Bool) : List String → (Table → Option Table) → Table → Option Table
  | [], f, t => f t
  | key :: path, f, t =>
    match t.get? key with
    | none => do
      let inner ← edit? dotted path f []
      t.add? key (.table (if dotted then .dotted else .implied) inner)
    | some (.table origin inner) =>
      if origin = .inline ∨ (dotted = true ∧ origin = .header) then none
      else do
        let inner ← edit? dotted path f inner
        return t.replace key (.table origin inner)
    | some (.tables elements) =>
      match elements.getLast? with
      | some last => do
        let last ← edit? dotted path f last
        return t.replace key (.tables (elements.dropLast ++ [last]))
      | none => none
    | some _ => none

/-- The table after a table header. The table may have been implied before, but not written. -/
def openTable? (path : List String) (t : Table) : Option Table :=
  match path.getLast? with
  | none => none
  | some key =>
    edit? false path.dropLast (fun t =>
      match t.get? key with
      | none => t.add? key (.table .header [])
      | some (.table .implied inner) => some (t.replace key (.table .header inner))
      | some _ => none) t

/-- The table after a header that adds an element to an array of tables. -/
def openElement? (path : List String) (t : Table) : Option Table :=
  match path.getLast? with
  | none => none
  | some key =>
    edit? false path.dropLast (fun t =>
      match t.get? key with
      | none => t.add? key (.tables [[]])
      | some (.tables elements) => some (t.replace key (.tables (elements ++ [[]])))
      | some _ => none) t

/-- The table after an assignment to a dotted key. -/
def assign? (path : List String) (value : Value) (t : Table) : Option Table :=
  match path.getLast? with
  | none => none
  | some key => edit? true path.dropLast (·.add? key value) t

end Table

end SoloBuild.Toml
