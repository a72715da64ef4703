import SoloBuild.Shell.CharSet
import SoloBuild.Shell.Effect
import SoloBuild.Shell.Options
import SoloBuild.Text.Digits

/-!
# Exchanging characters

The sets of `tr`, and what it does with them: it exchanges characters, drops them, or makes runs of
them single.
-/

namespace SoloBuild.Shell.Exchange

open Text

/-- A part of a set. -/
inductive Item where
  | chars (cs : List Char)
  | named (name : String)
  /-- A character as often as it takes to make the set as long as the other one. -/
  | fill (c : Char)
  deriving DecidableEq, Repr

/-- All characters, in order. -/
def allChars : List Char := (List.range 256).map Char.ofNat

/-- The characters of a named class, in order. -/
def classChars? (name : String) : Option (List Char) :=
  (characterClasses.lookup name).map fun ranges =>
    allChars.filter fun c => ranges.any fun (lo, hi) => lo ≤ c && c ≤ hi

/-- The character that the text begins with, which may be escaped, and the rest. -/
def firstChar? : List Char → Option (Char × Bool × List Char)
  | [] => none
  | '\\' :: rest =>
    let digits := (rest.take 3).takeWhile isOctalDigit
    let digits := if numberOf 8 digits < 256 then digits else digits.take 2
    if !digits.isEmpty then some (Char.ofNat (numberOf 8 digits), true, rest.drop digits.length)
    else
      match rest with
      | [] => some ('\\', true, [])
      | c :: rest =>
        let named := [('a', '\x07'), ('b', '\x08'), ('f', '\x0c'), ('n', '\n'), ('r', '\r'),
          ('t', '\t'), ('v', '\x0b')]
        some ((named.lookup c).getD c, true, rest)
  | c :: rest => some (c, false, rest)

/-- A character as a message shows it. -/
def shown (c : Char) : String :=
  if c.toNat < 32 ∨ 126 < c.toNat then
    "\\" ++ String.ofList ((Nat.toDigits 8 (512 + c.toNat)).drop 1)
  else if c = '\\' then "\\\\"
  else String.ofList [c]

/-- The text between an opening bracket with a mark and the mark with a closing bracket. -/
def marked? (mark : Char) : List Char → Option (List Char × List Char)
  | [] => none
  | [_] => none
  | c :: d :: rest =>
    if c = mark ∧ d = ']' then some ([], rest)
    else (marked? mark (d :: rest)).map fun (inner, after) => (c :: inner, after)

/-- What stands between brackets at the front of a text, with the rest. -/
def bracketed? (cs : List Char) : Except String (Option (Item × List Char)) :=
  match cs with
  | '[' :: ':' :: rest =>
    match marked? ':' rest with
    | some (name, after) =>
      let name := String.ofList name
      if (characterClasses.lookup name).isSome then .ok (some (.named name, after))
      else if name.isEmpty then .error "missing character class name '[::]'"
      else .error ("invalid character class '" ++ name ++ "'")
    | none => .ok none
  | '[' :: '=' :: rest =>
    match marked? '=' rest with
    | some ([c], after) => .ok (some (.chars [c], after))
    | some ([], _) => .error "missing equivalence class character '[==]'"
    | some (text, _) =>
      .error (String.ofList text ++ ": equivalence class operand must be a single character")
    | none => .ok none
  | '[' :: rest =>
    match firstChar? rest with
    | some (c, _, '*' :: after) =>
      match after.dropWhile (· != ']') with
      | ']' :: rest =>
        let count := after.takeWhile (· != ']')
        let base := if count.head? = some '0' then 8 else 10
        if count.any fun d => !(if base = 8 then isOctalDigit d else d.isDigit) then
          .error ("invalid repeat count '" ++ String.ofList count ++ "' in [c*n] construct")
        else
          let n := numberOf base count
          .ok (some (if n = 0 then .fill c else .chars (List.replicate n c), rest))
      | _ => .ok none
    | _ => .ok none
  | _ => .ok none

/-- The parts of a set. The first argument bounds the number of characters. -/
def items : Nat → List Char → Except String (List Item)
  | 0, _ => .ok []
  | n + 1, cs => do
    match ← bracketed? cs with
    | some (item, rest) => return item :: (← items n rest)
    | none =>
      match firstChar? cs with
      | none => return []
      | some (lo, _, '-' :: rest) =>
        match firstChar? rest with
        | none => return .chars [lo] :: (← items n ('-' :: rest))
        | some (hi, _, after) =>
          if hi < lo then
            throw ("range-endpoints of '" ++ shown lo ++ "-" ++ shown hi ++
              "' are in reverse collating sequence order")
          else
            let chars := allChars.filter fun c => lo ≤ c && c ≤ hi
            return .chars chars :: (← items n after)
      | some (c, _, rest) => return .chars [c] :: (← items n rest)

/-- The parts of the set that a text is. -/
def itemsOf (text : String) : Except String (List Item) := items (text.length + 1) text.toList

/-- The characters of parts, as many as asked for where a part can fill a set. -/
def charsOf (length : Nat) (parts : List Item) : List Char :=
  let plain : Item → List Char
    | .chars cs => cs
    | .named name => (classChars? name).getD []
    | .fill _ => []
  let missing := length - (parts.flatMap plain).length
  parts.flatMap fun part =>
    match part with
    | .fill c => List.replicate missing c
    | part => plain part

/-- Runs of the same character of a set made single. -/
def squeezed (set : List Char) : List Char → List Char
  | a :: b :: rest =>
    if a = b ∧ set.contains a then squeezed set (b :: rest) else a :: squeezed set (b :: rest)
  | cs => cs

/-- What the characters of a set become by their places. A second set that is too short goes on with
its last character. -/
def pairsOf (source target : List Char) : List (Char × Char) :=
  let missing := source.length - target.length
  source.zip (target ++ List.replicate missing (target.getLast?.getD '\x00'))

/-- What is wrong with the number of operands. -/
def misuse? (deletes squeezes : Bool) (operands : List String) : Option String :=
  match operands with
  | [] => some "missing operand"
  | [set] =>
    if deletes && squeezes then
      some ("missing operand after '" ++ set ++
        "'\nTwo strings must be given when both deleting and squeezing repeats.")
    else if deletes || squeezes then none
    else some ("missing operand after '" ++ set ++
      "'\nTwo strings must be given when translating.")
  | [_, second] =>
    if deletes && !squeezes then
      some ("extra operand '" ++ second ++
        "'\nOnly one string may be given when deleting without squeezing repeats.")
    else none
  | _ :: _ :: third :: _ => some ("extra operand '" ++ third ++ "'")

/-- What is made of a text. -/
def made (a : Arguments) (text : List Char) : Except String (List Char) := do
  let complements := a.has 'c' || a.has 'C'
  let first := charsOf 0 (← itemsOf (a.operands.headD ""))
  let source := if complements then allChars.filter fun c => !first.contains c else first
  let second ← itemsOf ((a.operands[1]?).getD "")
  match a.has 'd', a.has 's', a.operands[1]? with
  | true, false, _ => return text.filter fun c => !source.contains c
  | true, true, _ => return squeezed (charsOf 0 second) (text.filter fun c => !source.contains c)
  | false, true, none => return squeezed source text
  | false, squeezes, _ =>
    let isMapping : Item → Bool
      | .named name => name == "upper" || name == "lower"
      | _ => true
    if !second.all isMapping then
      throw ("when translating, the only character classes that may appear in\n" ++
        "string2 are 'upper' and 'lower'")
    let target := charsOf source.length second
    if target.isEmpty && !source.isEmpty && !a.has 't' then
      throw "when not truncating set1, string2 must be non-empty"
    let source := if a.has 't' then source.take target.length else source
    -- The last place of a character counts.
    let pairs := (pairsOf source target).reverse
    let result := text.map fun c => (pairs.lookup c).getD c
    return if squeezes then squeezed target result else result

/-- The options of `tr`. -/
def table : OptionTable := {
  flags := "cCdst"
  names := [("complement", 'c'), ("delete", 'd'), ("squeeze-repeats", 's'), ("truncate-set1", 't')]
  stopsAtOperand := true }

/-- What `tr` does. -/
def run (e : Effect) (args : List String) : Effect :=
  match table.read args with
  | .error message => e.misuse message 1
  | .ok a =>
    match misuse? (a.has 'd') (a.has 's') a.operands with
    | some message => e.misuse message 1
    | none =>
      match made a (textOf e.input) with
      | .ok text => { e with input := [] }.write (bytesOfChars text)
      | .error message => e.complain message 1

end SoloBuild.Shell.Exchange
