import SoloBuild.Shell.Effect
import SoloBuild.Text.Digits
import SoloBuild.Text.Splitting

/-!
# Lines in order

What `sort` and `uniq` do: lines are brought into an order by keys, and equal lines that follow each
other become one.
-/

namespace SoloBuild.Shell

open Text

/-! ## Keys -/

/-- A place in a line: a field, and a character in it. -/
structure KeyEnd where
  field : Nat
  char : Nat
  skipsBlanks : Bool := false
  deriving DecidableEq, Repr

/-- A part of a line that is compared. -/
structure SortKey where
  start : KeyEnd := ⟨1, 1, false⟩
  stop : Option KeyEnd := none
  numeric : Bool := false
  folded : Bool := false
  inverted : Bool := false
  deriving DecidableEq, Repr

/-- An order, turned around if that is asked for. -/
def Ordering.reversed (reverse : Bool) (o : Ordering) : Ordering := if reverse then o.swap else o

namespace SortKey

/-- What is left of a line after so many fields. -/
def afterFields (delimiter : Option Char) (keepsDelimiter : Bool) : Nat → List Char → List Char
  | 0, text => text
  | n + 1, text =>
    match delimiter with
    | some d =>
      match text.dropWhile (· != d) with
      | [] => []
      | mark :: rest =>
        if n = 0 ∧ keepsDelimiter then mark :: rest
        else afterFields delimiter keepsDelimiter n rest
    | none =>
      let isBlank (c : Char) : Bool := c == ' ' || c == '\t'
      afterFields delimiter keepsDelimiter n
        ((text.dropWhile isBlank).dropWhile fun c => !isBlank c)

/-- What is left of a line from a place on. -/
def fromPlace (delimiter : Option Char) (p : KeyEnd) (text : List Char) : List Char :=
  let rest := afterFields delimiter false (p.field - 1) text
  let rest := if p.skipsBlanks then rest.dropWhile fun c => c == ' ' || c == '\t' else rest
  rest.drop (p.char - 1)

/-- What is left of a line after a key that ends at a place. -/
def afterPlace (delimiter : Option Char) (p : KeyEnd) (text : List Char) : List Char :=
  if p.char = 0 then afterFields delimiter true p.field text
  else
    let rest := afterFields delimiter false (p.field - 1) text
    let rest := if p.skipsBlanks then rest.dropWhile fun c => c == ' ' || c == '\t' else rest
    rest.drop p.char

/-- The part of a line that a key names. -/
def part (k : SortKey) (delimiter : Option Char) (text : List Char) : List Char :=
  let front := fromPlace delimiter k.start text
  match k.stop with
  | none => front
  | some stop => front.take (front.length - (afterPlace delimiter stop text).length)

/-- The number that a text begins with: its digits as one number, and how many of them are decimal
places. -/
def number (text : List Char) : Int × Nat :=
  let text := text.dropWhile fun c => c == ' ' || c == '\t'
  let (negative, text) := match text with
    | '-' :: rest => (true, rest)
    | text => (false, text)
  let whole := text.takeWhile Char.isDigit
  let places := match text.drop whole.length with
    | '.' :: rest => rest.takeWhile Char.isDigit
    | _ => []
  let n : Nat := decimal (whole ++ places)
  (if negative then -(n : Int) else n, places.length)

/-- The order of two lines by a key. -/
def compare (k : SortKey) (delimiter : Option Char) (a b : List Char) : Ordering :=
  let a := k.part delimiter a
  let b := k.part delimiter b
  let order :=
    if k.numeric then
      let (m, i) := number a
      let (n, j) := number b
      Ord.compare (m * (Nat.pow 10 j : Nat)) (n * (Nat.pow 10 i : Nat))
    else
      let folded (text : List Char) : String :=
        String.ofList (if k.folded then text.map Char.toUpper else text)
      Ord.compare (folded a) (folded b)
  Ordering.reversed k.inverted order

/-- A place that a text tells, with the letters after it. -/
def place? (text : List Char) : Option (Nat × Option Nat × List Char) :=
  let field := text.takeWhile Char.isDigit
  if field.isEmpty then none
  else
    match text.drop field.length with
    | '.' :: rest =>
      let char := rest.takeWhile Char.isDigit
      some (decimal field, some (decimal char), rest.drop char.length)
    | rest => some (decimal field, none, rest)

/-- A key with what letters say about it. -/
def withLetters (k : SortKey) (letters : List Char) : SortKey :=
  { k with
    numeric := k.numeric || letters.contains 'n', folded := k.folded || letters.contains 'f'
    inverted := k.inverted || letters.contains 'r' }

/-- The key that a text tells. Letters of its own take the place of those for all keys. -/
def ofText (whole : SortKey) (text : String) : Except String SortKey :=
  let bad {α : Type} (reason : String) : Except String α := .error reason
  match splitWhere (· == ',') text.toList with
  | first :: more =>
    match place? first with
    | none =>
      bad ("invalid number at field start: invalid count at start of '" ++ text ++ "'")
    | some (0, _) => bad ("field number is zero: invalid field specification '" ++ text ++ "'")
    | some (field, char, letters) =>
      let skips (letters : List Char) : Bool := letters.contains 'b'
      let start : KeyEnd := ⟨field, char.getD 1, skips letters || whole.start.skipsBlanks⟩
      match more with
      | [] =>
        .ok (if letters.isEmpty then { whole with start }
          else ({ start } : SortKey).withLetters letters)
      | second :: _ =>
        match place? second with
        | none => bad ("invalid number after ',': invalid count at start of '" ++
            String.ofList second ++ "'")
        | some (field, char, others) =>
          let stop : Option KeyEnd := some ⟨field, char.getD 0, skips others⟩
          let all := letters ++ others
          .ok (if all.isEmpty then { whole with start, stop }
            else ({ start, stop } : SortKey).withLetters all)
  | [] => .ok whole

end SortKey

/-! ## Sorting -/

/-- How lines are sorted. -/
structure Sorting where
  keys : List SortKey
  delimiter : Option Char
  /-- Lines whose keys are equal are in the order of their texts, which may be turned around. -/
  lastResort : Option Bool
  unique : Bool

namespace Sorting

/-- How options ask for lines to be sorted. -/
def ofArguments (a : Arguments) : Except String Sorting := do
  let whole : SortKey := {
    start := ⟨1, 1, a.has 'b'⟩, numeric := a.has 'n' || a.has 'g', folded := a.has 'f'
    inverted := a.has 'r' }
  let keys ← (a.values 'k').mapM (SortKey.ofText whole)
  return {
    keys := if keys.isEmpty then [whole] else keys
    delimiter := (a.value? 't').bind fun text => text.toList.head?
    lastResort := if a.has 's' || a.has 'u' then none else some (a.has 'r')
    unique := a.has 'u' }

/-- The order of two lines by the keys. -/
def byKeys (s : Sorting) (a b : List Char) : Ordering :=
  s.keys.foldl (fun order k => order.then (k.compare s.delimiter a b)) .eq

/-- The order of two lines. -/
def order (s : Sorting) (a b : List Char) : Ordering :=
  match s.byKeys a b, s.lastResort with
  | .eq, some reverse =>
    Ordering.reversed reverse (compare (String.ofList a) (String.ofList b))
  | order, _ => order

/-- Lines in order. -/
def sorted (s : Sorting) (lines : List (List Char)) : List (List Char) :=
  let lines := lines.mergeSort fun a b => s.order a b != .gt
  if s.unique then
    (lines.splitBy fun a b => s.byKeys a b == .eq).filterMap List.head?
  else lines

end Sorting

/-- What `sort` does. -/
def runSort (e : Effect) (args : List String) : Effect :=
  let table : OptionTable := {
    flags := "nrufbsgdiz", valued := "kto"
    names := [("numeric-sort", 'n'), ("reverse", 'r'), ("unique", 'u'), ("ignore-case", 'f'),
      ("ignore-leading-blanks", 'b'), ("stable", 's'), ("key", 'k'), ("field-separator", 't'),
      ("output", 'o'), ("general-numeric-sort", 'g')] }
  e.withArguments table 2 args fun a =>
    match Sorting.ofArguments a with
    | .error message => e.complain message 2
    | .ok sorting =>
      let unreadable (e : Effect) (file : String) (cause : OsError) : Effect :=
        e.complain ((if cause = .isADirectory then "read failed: " else "cannot read: ") ++ file ++
          ": " ++ errorText cause) 2
      let (e, contents) := operands e unreadable a.operands
      -- Nothing is written when a file cannot be read.
      if e.status != 0 then e
      else
        let lines := sorting.sorted (contents.flatMap textLines)
        let bytes := lines.flatMap fun line => bytesOfChars (line ++ ['\n'])
        match a.value? 'o' with
        | none => e.write bytes
        | some file =>
          match e.files.writeBytes (pathOf file) ⟨bytes.toArray⟩ with
          | .ok files => { e with files }
          | .error cause => e.complain ("open failed: " ++ file ++ ": " ++ errorText cause) 2

/-! ## Equal lines -/

/-- A number, with blanks before it up to a width. -/
def aligned (width n : Nat) : String :=
  let digits := toString n
  String.ofList (List.replicate (width - digits.length) ' ') ++ digits

/-- What `uniq` does. -/
def runUniq (e : Effect) (args : List String) : Effect :=
  let table : OptionTable := {
    flags := "cdui", valued := "fsw"
    names := [("count", 'c'), ("repeated", 'd'), ("unique", 'u'), ("ignore-case", 'i'),
      ("skip-fields", 'f'), ("skip-chars", 's'), ("check-chars", 'w')] }
  e.withArguments table 1 args fun a =>
    match a.operands[2]? with
    | some extra => e.misuse ("extra operand '" ++ extra ++ "'") 1
    | none =>
      let (e, contents) := operands e (plainly 1) (a.operands.take 1)
      if e.status != 0 then e
      else
        let amount (c : Char) : Nat := decimal ((a.value? c).getD "0").toList
        let compared (line : List Char) : List Char :=
          let rest := (SortKey.afterFields none false (amount 'f') line).drop (amount 's')
          let rest := match a.value? 'w' with
            | some text => rest.take (decimal text.toList)
            | none => rest
          if a.has 'i' then rest.map Char.toLower else rest
        let runs := (contents.flatMap textLines).splitBy fun a b => compared a == compared b
        let kept := runs.filter fun run =>
          (run.length == 1 || !a.has 'u') && (1 < run.length || !a.has 'd')
        let bytes := kept.flatMap fun run =>
          bytesOf (if a.has 'c' then aligned 7 run.length ++ " " else "") ++
            bytesOfChars (run.headD [] ++ ['\n'])
        match a.operands[1]? with
        | none | some "-" => e.write bytes
        | some file =>
          match e.files.writeBytes (pathOf file) ⟨bytes.toArray⟩ with
          | .ok files => { e with files }
          | .error cause => e.complain (file ++ ": " ++ errorText cause) 1

end SoloBuild.Shell
