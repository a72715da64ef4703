import SoloBuild.Toml.Value

/-!
# Records in TOML

A record is written as a table of its fields, or as an array of their values in order. Fields that
the record does not have are refused; items after the last field of an array do not count.
-/

namespace SoloBuild.Toml

namespace Value

/-- The text of a string. -/
def asString? : Value → Option String
  | .string text => some text
  | _ => none

/-- The least number that a 64-bit word cannot hold. -/
def wordLimit : Int := 18446744073709551616

/-- An integer that a 64-bit word can hold. -/
def asWord? : Value → Option UInt64
  | .integer (some n) => if 0 ≤ n ∧ n < wordLimit then some (UInt64.ofNat n.toNat) else none
  | _ => none

/-- The items of an array; the tables of an array of tables are items as well. -/
def asList? : Value → Option (List Value)
  | .array items => some items
  | .tables elements => some (elements.map (.table .header))
  | _ => none

/-- The fields of a record, by name. The argument names all fields the record may have, in
order. -/
def asRecord? (names : List String) (v : Value) : Option Table :=
  match v with
  | .table _ fields => if fields.all fun (name, _) => names.contains name then some fields else none
  | v => v.asList?.map names.zip

/-- The key under which a date or a time is a table. -/
def datetimeKey : String := "$__toml_private_datetime"

/-- The entries of a table of strings. -/
def asStrings? : Value → Option (List (String × String))
  | .table _ entries => entries.mapM fun (key, v) => v.asString?.map fun text => (key, text)
  | .datetime d => some [(datetimeKey, String.ofList d.text)]
  | _ => none

end Value

namespace Table

/-- A field that may be missing. -/
def optional? {α : Type} (read? : Value → Option α) (name : String) (default : α) (fields : Table) :
    Option α :=
  match fields.get? name with
  | none => some default
  | some v => read? v

/-- A field that has to be there. -/
def required? {α : Type} (read? : Value → Option α) (name : String) (fields : Table) : Option α :=
  (fields.get? name).bind read?

end Table

end SoloBuild.Toml
