import SoloBuild.Engine.Prepare

/-!
# Reports

What a synthesis reports, as JSON with one field to a line.
-/

namespace SoloBuild.Console

/-- The hexadecimal digit of a number below sixteen. -/
def lowerHexDigit (n : Nat) : Char :=
  if n < 10 then Char.ofNat ('0'.toNat + n) else Char.ofNat ('a'.toNat + (n - 10))

/-- A character in a JSON string. -/
def jsonChar (c : Char) : List Char :=
  if c = '"' then ['\\', '"']
  else if c = '\\' then ['\\', '\\']
  else if c = '\n' then ['\\', 'n']
  else if c = '\r' then ['\\', 'r']
  else if c = '\t' then ['\\', 't']
  else if c = '\x08' then ['\\', 'b']
  else if c = '\x0c' then ['\\', 'f']
  else if c.toNat < 0x20 then
    ['\\', 'u', '0', '0', lowerHexDigit (c.toNat / 16), lowerHexDigit (c.toNat % 16)]
  else [c]

/-- A JSON string. -/
def jsonString (s : String) : String :=
  "\"" ++ String.ofList (s.toList.flatMap jsonChar) ++ "\""

/-- The fields of a report about a synthesis, with their values in JSON. -/
def reportFields (p : PreparedCompile) : List (String × String) :=
  [("config", jsonString p.config.path.text),
    ("project", jsonString p.project.name),
    ("target", jsonString p.target.name),
    ("source_target", jsonString p.target.sourceName),
    ("file", jsonString p.target.inputFile.text),
    ("command", jsonString p.command.display),
    ("working_dir", jsonString p.command.workingDir.text),
    ("purged", match p.config.purged with
      | some dir => jsonString dir.text
      | none => "null")]

/-- The report about a synthesis. -/
def jsonReport (p : PreparedCompile) : String :=
  let lines := (reportFields p).map fun (name, value) => "  " ++ jsonString name ++ ": " ++ value
  "\x7b\n" ++ ",\n".intercalate lines ++ "\n\x7d"

end SoloBuild.Console
