import SoloBuild.Shell.Effect
import SoloBuild.Shell.Exchange
import SoloBuild.Text.Digits
import SoloBuild.Text.Splitting

/-!
# Excerpts

The front and the end of a text, and parts of its lines: `head`, `tail` and `cut`.
-/

namespace SoloBuild.Shell

open Text

/-! ## Amounts -/

/-- What a letter after a number multiplies it by. -/
def multiples : List (String × Nat) :=
  [("", 1), ("b", 512), ("k", 1024), ("K", 1024), ("kB", 1000), ("KB", 1000), ("KiB", 1024),
    ("M", 1048576), ("MB", 1000000), ("MiB", 1048576), ("m", 1048576), ("G", 1073741824),
    ("GB", 1000000000), ("GiB", 1073741824)]

/-- The number that a text is, with what it is multiplied by. -/
def multiple? (text : List Char) : Option Nat :=
  let digits := text.takeWhile Char.isDigit
  if digits.isEmpty then none
  else (multiples.lookup (String.ofList (text.drop digits.length))).map (decimal digits * ·)

/-- The side of a text that an amount is counted from. -/
inductive Side where
  | plain
  | plus
  | minus
  deriving DecidableEq, Repr

/-- How much of a text is meant. -/
structure Amount where
  /-- Bytes are counted, and not lines. -/
  inBytes : Bool := false
  side : Side := .plain
  count : Nat := 10
  deriving DecidableEq, Repr

namespace Amount

/-- The amount that a text tells. -/
def ofText? (inBytes : Bool) (text : String) : Option Amount :=
  match text.toList with
  | '-' :: digits => (multiple? digits).map fun count => { inBytes, side := .minus, count }
  | '+' :: digits => (multiple? digits).map fun count => { inBytes, side := .plus, count }
  | digits => (multiple? digits).map fun count => { inBytes, count }

/-- Why a text tells no amount. -/
def fault (inBytes : Bool) (text : String) : String :=
  let digits := text.toList.dropWhile fun c => c == '-' || c == '+'
  "invalid number of " ++ (if inBytes then "bytes" else "lines") ++ ": '" ++
    String.ofList digits ++ "'"

/-- The parts that are counted: bytes, or lines. -/
def parts (a : Amount) (bytes : List UInt8) : List (List UInt8) :=
  if a.inBytes then bytes.map fun b => [b] else byteLines bytes

/-- The front of a text, or all but its end. -/
def front (a : Amount) (bytes : List UInt8) : List UInt8 :=
  let parts := a.parts bytes
  (parts.take (if a.side = .minus then parts.length - a.count else a.count)).flatten

/-- What comes after the front. -/
def rest (a : Amount) (bytes : List UInt8) : List UInt8 :=
  let parts := a.parts bytes
  (parts.drop (if a.side = .minus then parts.length - a.count else a.count)).flatten

/-- The end of a text, or all of it from a place on. -/
def back (a : Amount) (bytes : List UInt8) : List UInt8 :=
  let parts := a.parts bytes
  (parts.drop (if a.side = .plus then a.count - 1 else parts.length - a.count)).flatten

/-- The amount that options tell: the last of them counts. -/
def ofArguments (a : Arguments) : Except String Amount :=
  a.options.foldl (fun amount (c, value) =>
    if c = 'n' ∨ c = 'c' then do
      let _ ← amount
      match ofText? (c == 'c') value with
      | some amount => .ok amount
      | none => .error (fault (c == 'c') value)
    else amount) (.ok {})

end Amount

/-! ## Fronts and ends -/

/-- The options that tell an amount. -/
def amountTable : OptionTable := {
  flags := "qvzfF", valued := "nc"
  names := [("lines", 'n'), ("bytes", 'c'), ("quiet", 'q'), ("silent", 'q'), ("verbose", 'v'),
    ("follow", 'f'), ("zero-terminated", 'z')] }

/-- The old way to tell a number of lines: it stands right after the dash of the first argument. -/
def withPlainCount : List String → List String
  | arg :: rest =>
    match arg.toList with
    | '-' :: d :: digits =>
      if d.isDigit && digits.all Char.isDigit then "-n" :: String.ofList (d :: digits) :: rest
      else arg :: rest
    | _ => arg :: rest
  | [] => []

/-- What is said about an option that is a digit. -/
def trailingFault (message : String) : String :=
  match afterFront? "invalid option -- '".toList message.toList with
  | some (c :: _) =>
    if c.isDigit then "invalid trailing option -- " ++ String.ofList [c] else message
  | _ => message

/-- Writes excerpts of files, each under its name if there are several. -/
def writeExcerpts (e : Effect) (a : Arguments) (excerpt : List UInt8 → List UInt8) : Effect :=
  let named := a.has 'v' || (1 < a.operands.length && !a.has 'q')
  let title (e : Effect) (isFirst : Bool) (file : String) : Effect :=
    let name := if file = "-" then "standard input" else file
    if named then
      e.write (bytesOf ((if isFirst then "" else "\n") ++ "==> " ++ name ++ " <==\n"))
    else e
  let unreadable (e : Effect) (file : String) (cause : OsError) : Effect :=
    if cause = .isADirectory then
      e.complain ("error reading '" ++ file ++ "': " ++ errorText cause) 1
    else e.complain ("cannot open '" ++ file ++ "' for reading: " ++ errorText cause) 1
  ((orInput a.operands).foldl (fun ((e : Effect), (isFirst : Bool)) file =>
    match contentAt e.files e.demand file, file == "-" || file == "/dev/stdin" with
    | .error .isADirectory, false =>
      (unreadable (title e isFirst file) file .isADirectory, false)
    | .error cause, false => (unreadable e file cause, isFirst)
    | _, _ =>
      match operand e unreadable file with
      | (e, some content) => ((title e isFirst file).write (excerpt content), false)
      | (e, none) => (e, isFirst)) (e, true)).1

/-- What `head` does. Of an input that is a file, what comes after the front is left. -/
def runHead (e : Effect) (args : List String) : Effect :=
  match amountTable.read (withPlainCount args) with
  | .error message => e.misuse (trailingFault message) 1
  | .ok a =>
    match Amount.ofArguments a with
    | .error message => e.complain message 1
    | .ok amount =>
      let endless := amount.inBytes && amount.side != .minus
      let left := if e.readsFile && a.operands.isEmpty then amount.rest e.input else []
      let e := { e with demand := if endless then amount.count else e.demand }
      { writeExcerpts e a amount.front with input := left }

/-- What `tail` does. When it follows a file it does not come to an end. -/
def runTail (e : Effect) (args : List String) : Effect :=
  let args := match args with
    | arg :: rest =>
      match arg.toList with
      | '+' :: d :: digits =>
        if d.isDigit && rest.length ≤ 1 then "-n" :: String.ofList ('+' :: d :: digits) :: rest
        else args
      | '-' :: d :: _ =>
        if d.isDigit && 1 < rest.length then args else withPlainCount args
      | _ => args
    | [] => []
  match amountTable.read args with
  | .error message =>
    match afterFront? "invalid option -- '".toList message.toList with
    | some (c :: _) =>
      if c.isDigit then
        e.complain ("option used in invalid context -- " ++ String.ofList [c]) 1
      else e.misuse message 1
    | _ => e.misuse message 1
  | .ok a =>
    match Amount.ofArguments a with
    | .error message => e.complain message 1
    | .ok amount =>
      let e := writeExcerpts e a amount.back
      { e with time := if a.has 'f' || a.has 'F' then endless else e.time }

/-! ## Parts of lines -/

/-- What `cut` keeps of each line: characters, or fields between delimiters. -/
structure Selection where
  byFields : Bool
  delimiter : Char
  /-- Positions from one number to another, counted from one. -/
  ranges : List (Nat × Option Nat)
  /-- Everything else is kept. -/
  inverted : Bool
  /-- Lines without a delimiter are dropped. -/
  onlyDelimited : Bool
  joint : List Char

namespace Selection

/-- The range of positions that a text tells. -/
def range (byFields : Bool) (item : List Char) : Except String (Nat × Option Nat) :=
  let what := if byFields then "fields are" else "byte/character positions are"
  let value := if byFields then "field value" else "byte/character position"
  let zero : Except String (Nat × Option Nat) := .error (what ++ " numbered from 1")
  match splitWhere (· == '-') item with
  | [[]] => zero
  | [a] =>
    if !a.all Char.isDigit then .error ("invalid " ++ value ++ " '" ++ String.ofList a ++ "'")
    else if decimal a = 0 then zero
    else .ok (decimal a, some (decimal a))
  | [[], []] => .error "invalid range with no endpoint: -"
  | [a, b] =>
    if !(a ++ b).all Char.isDigit then
      .error ("invalid " ++ value ++ " '" ++ String.ofList
        ((if a.all Char.isDigit then b else item)) ++ "'")
    else if !a.isEmpty && decimal a = 0 then zero
    else
      let first := if a.isEmpty then 1 else decimal a
      if b.isEmpty then .ok (first, none)
      else if decimal b < first then .error "invalid decreasing range"
      else .ok (first, some (decimal b))
  | _ => .error "invalid byte, character or field list"

/-- What options ask for. -/
def ofArguments (a : Arguments) : Except String Selection := do
  let lists := a.options.filter fun o => ['b', 'c', 'f'].contains o.1
  let delimiter := (a.value? 'd').getD "\t"
  match lists with
  | [] => throw "you must specify a list of bytes, characters, or fields"
  | [(c, list)] =>
    let byFields := c == 'f'
    if 1 < delimiter.length then throw "the delimiter must be a single character"
    if !byFields && (a.value? 'd').isSome then
      throw "an input delimiter may be specified only when operating on fields"
    if !byFields && a.has 's' then
      throw "suppressing non-delimited lines makes sense\n\tonly when operating on fields"
    let isMark (c : Char) : Bool := c == ',' || c == ' ' || c == '\t'
    return {
      byFields, ranges := ← (splitWhere isMark list.toList).mapM (range byFields)
      delimiter := delimiter.toList.headD '\x00', inverted := a.has 'C', onlyDelimited := a.has 's'
      joint := match a.value? 'O' with
        | some text => text.toList
        | none => if byFields then [delimiter.toList.headD '\x00'] else [] }
  | _ => throw "only one list may be specified"

/-- The items at the positions that are kept. -/
def kept {α : Type} (s : Selection) (items : List α) : List α :=
  ((items.zipIdx 1).filter fun (_, i) =>
    (s.ranges.any fun (a, b) => a ≤ i && b.all fun b => i ≤ b) != s.inverted).map (·.1)

/-- What is kept of a line; nothing if the line is dropped. -/
def line? (s : Selection) (text : List Char) : Option (List Char) :=
  if !s.byFields then some (s.kept text)
  else
    match splitWhere (· == s.delimiter) text with
    | [whole] => if s.onlyDelimited then none else some whole
    | fields => some (s.joint.intercalate (s.kept fields))

end Selection

/-- What `cut` does. -/
def runCut (e : Effect) (args : List String) : Effect :=
  let table : OptionTable := {
    flags := "snz", valued := "bcfdO"
    names := [("bytes", 'b'), ("characters", 'c'), ("fields", 'f'), ("delimiter", 'd'),
      ("only-delimited", 's'), ("complement", 'C'), ("output-delimiter", 'O')] }
  e.withArguments table 1 args fun a =>
    match Selection.ofArguments a with
    | .error message => e.misuse message 1
    | .ok selection =>
      let (e, contents) := operands e (plainly 1) a.operands
      e.write (contents.flatMap fun content => (textLines content).flatMap fun line =>
        match selection.line? line with
        | some line => bytesOfChars (line ++ ['\n'])
        | none => [])

end SoloBuild.Shell
