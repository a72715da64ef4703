import SoloBuild.Shell.Effect
import SoloBuild.Shell.Fraction
import SoloBuild.Shell.Regex
import SoloBuild.Text.Digits

/-!
# Utilities for numbers

The programs that count, compute and wait: `seq`, `expr` and `sleep`.
-/

namespace SoloBuild.Shell

open Text

/-! ## Counting up -/

/-- A decimal number: its digits as one number, and how many of them are decimal places. -/
structure Decimal where
  digits : Int
  places : Nat
  deriving DecidableEq, Repr

namespace Decimal

/-- The decimal number that a text is. -/
def ofText? (text : String) : Option Decimal :=
  let (negative, body) := match text.toList with
    | '-' :: rest => (true, rest)
    | '+' :: rest => (false, rest)
    | cs => (false, cs)
  let whole := body.takeWhile Char.isDigit
  let (places, rest) := match body.drop whole.length with
    | '.' :: rest => (rest.takeWhile Char.isDigit, rest.dropWhile Char.isDigit)
    | rest => ([], rest)
  let n : Nat := decimal (whole ++ places)
  let signed (n : Nat) : Int := if negative then -(n : Int) else n
  if whole.isEmpty && places.isEmpty then none
  else
    match rest with
    | [] => some ⟨signed n, places.length⟩
    | e :: power =>
      -- A power of ten moves the point.
      let (down, power) := match power with
        | '-' :: power => (true, power)
        | '+' :: power => (false, power)
        | power => (false, power)
      if (e != 'e' && e != 'E') || power.isEmpty || !power.all Char.isDigit then none
      else if down then some ⟨signed n, places.length + decimal power⟩
      else
        let more := decimal power - places.length
        some ⟨signed (n * Nat.pow 10 more), places.length - decimal power⟩

/-- The digits of a number brought to so many decimal places. -/
def scaled (d : Decimal) (places : Nat) : Int := d.digits * (Nat.pow 10 (places - d.places) : Nat)

/-- The text of a number with so many decimal places. -/
def text (places : Nat) (n : Int) : String :=
  (if n < 0 then "-" else "") ++ String.ofList (Fraction.fixed places n.natAbs (Nat.pow 10 places))

end Decimal

/-- The numbers from one to another by steps. -/
def numbers (first step last : Int) : List Int :=
  if step = 0 then []
  else
    let count := ((last - first) / step + 1).toNat
    (List.range count).map fun (i : Nat) => first + step * i

/-- What `seq` does: numbers from one to another. -/
def runSeq (e : Effect) (args : List String) : Effect :=
  let table : OptionTable := {
    flags := "w", valued := "sf", stopsAtOperand := true
    names := [("separator", 's'), ("equal-width", 'w'), ("format", 'f')] }
  -- A negative number is no option.
  let isNumber (arg : String) : Bool :=
    match arg.toList with
    | '-' :: c :: _ => c.isDigit || c == '.'
    | _ => false
  let args := match args with
    | arg :: _ => if isNumber arg then "--" :: args else args
    | [] => args
  e.withArguments table 1 args fun a =>
    match a.operands with
    | [] => e.misuse "missing operand" 1
    | _ :: _ :: _ :: extra :: _ => e.misuse ("extra operand '" ++ extra ++ "'") 1
    | operands =>
      match operands.find? fun arg => (Decimal.ofText? arg).isNone with
      | some arg => e.misuse ("invalid floating point argument: '" ++ arg ++ "'") 1
      | none =>
        let given := operands.filterMap Decimal.ofText?
        let one : Decimal := ⟨1, 0⟩
        let (first, step, last) := match given with
          | [last] => (one, one, last)
          | [first, last] => (first, one, last)
          | [first, step, last] => (first, step, last)
          | _ => (one, one, one)
        if step.digits = 0 then
          e.misuse ("invalid Zero increment value: '" ++ (operands[1]?).getD "" ++ "'") 1
        else
          let shown := max first.places step.places
          let places := max shown last.places
          let unit : Int := (Nat.pow 10 (places - shown) : Nat)
          let ns := numbers (first.scaled places) (step.scaled places) (last.scaled places)
          let texts := ns.map fun n => Decimal.text shown (n / unit)
          let width := (texts.map String.length).foldl max 0
          let padded (text : String) : String :=
            match text.toList with
            | '-' :: cs => String.ofList ('-' :: List.replicate (width - text.length) '0' ++ cs)
            | cs => String.ofList (List.replicate (width - text.length) '0' ++ cs)
          let texts := if a.has 'w' then texts.map padded else texts
          if texts.isEmpty then e
          else e.write (bytesOf (((a.value? 's').getD "\n").intercalate texts ++ "\n"))

/-! ## Expressions of arguments -/

namespace Expr

/-- The value of an argument, if it is an integer. -/
def integer? (text : String) : Option Int :=
  match text.toList with
  | '-' :: d :: digits =>
    if (d :: digits).all Char.isDigit then some (-(decimal (d :: digits) : Int)) else none
  | [] => none
  | digits => if digits.all Char.isDigit then some (decimal digits) else none

/-- A value counts as missing: it is empty, or zero. -/
def isNull (text : String) : Bool := text.isEmpty || integer? text == some 0

/-- What arguments are read for: the value so far, and the arguments after it. -/
abbrev Part := Except String (String × List String)

/-- What is said about arguments that end too early. -/
def missing {α : Type} (before : String) : Except String α :=
  .error ("syntax error: missing argument after '" ++ before ++ "'")

/-- The part of a text that an expression matches at its front: the first group, or the length. -/
def matched (text expression : String) : Except String String :=
  match Regex.ofText false expression.toList with
  | .error fault => .error fault.message
  | .ok r =>
    let groups := r.groupCount
    match (Regex.seq (.anchor .start) r).longest? false { rest := text.toList } with
    | none => .ok (if groups = 0 then "0" else "")
    | some p =>
      if groups = 0 then .ok (toString (text.length - p.rest.length))
      else .ok (String.ofList ((p.groups.lookup 1).getD []))

/-- An operator that binds as tightly as its level says. -/
def level? (op : String) : Option Nat :=
  [("|", 0), ("&", 1), ("<", 2), ("<=", 2), ("=", 2), ("==", 2), ("!=", 2), (">=", 2), (">", 2),
    ("+", 3), ("-", 3), ("*", 4), ("/", 4), ("%", 4), (":", 5)].lookup op

/-- The value of an operator with two operands. -/
def applied (op a b : String) : Except String String :=
  let truth (holds : Bool) : Except String String := .ok (if holds then "1" else "0")
  let compared (holds : Ordering → Bool) : Except String String :=
    truth (holds (match integer? a, integer? b with
      | some m, some n => compare m n
      | _, _ => compare a b))
  let computed (f : Int → Int → Int) : Except String String :=
    match integer? a, integer? b with
    | some m, some n => .ok (toString (f m n))
    | _, _ => .error "non-integer argument"
  let divided (f : Int → Int → Int) : Except String String :=
    if (integer? a).isSome && integer? b = some 0 then .error "division by zero" else computed f
  match op with
  | "|" => .ok (if !isNull a then a else if !isNull b then b else "0")
  | "&" => .ok (if isNull a || isNull b then "0" else a)
  | "<" => compared (· == .lt)
  | "<=" => compared (· != .gt)
  | "=" | "==" => compared (· == .eq)
  | "!=" => compared (· != .eq)
  | ">=" => compared (· != .lt)
  | ">" => compared (· == .gt)
  | "+" => computed (· + ·)
  | "-" => computed (· - ·)
  | "*" => computed (· * ·)
  | "/" => divided Int.tdiv
  | "%" => divided Int.tmod
  | _ => matched a b

mutual

/-- An operand. The first argument of each reader bounds the number of steps, and `before` is the
argument that was read last. -/
def operand : Nat → String → List String → Part
  | 0, before, _ => missing before
  | n + 1, before, args =>
    match args with
    | [] => missing before
    | "(" :: rest => do
      let (value, rest) ← operation n 0 "(" rest
      match rest with
      | ")" :: rest => return (value, rest)
      | _ =>
        let read := args.take (args.length - rest.length)
        throw ("syntax error: expecting ')' " ++ match rest with
          | [] => "after '" ++ (read.getLast?.getD "") ++ "'"
          | other :: _ => "instead of '" ++ other ++ "'")
    | ")" :: _ => throw "syntax error: unexpected ')'"
    | "+" :: text :: rest => .ok (text, rest)
    | "length" :: rest => do
      let (text, rest) ← operand n "length" rest
      return (toString text.length, rest)
    | "match" :: rest => do
      let (text, rest) ← operand n "match" rest
      let (expression, rest) ← operand n text rest
      return (← matched text expression, rest)
    | "index" :: rest => do
      let (text, rest) ← operand n "index" rest
      let (chars, rest) ← operand n text rest
      let place := text.toList.findIdx? fun c => chars.toList.contains c
      return (toString (place.elim 0 (· + 1)), rest)
    | "substr" :: rest => do
      let (text, rest) ← operand n "substr" rest
      let (position, rest) ← operand n text rest
      let (length, rest) ← operand n position rest
      match integer? position, integer? length with
      | some p, some l =>
        if p ≤ 0 ∨ l ≤ 0 then return ("", rest)
        else return (String.ofList ((text.toList.drop (p.toNat - 1)).take l.toNat), rest)
      | _, _ => return ("", rest)
    | text :: rest => .ok (text, rest)

/-- Operands joined by operators that bind at least so tightly. -/
def operation : Nat → Nat → String → List String → Part
  | 0, _, before, _ => missing before
  | n + 1, level, before, args => do
    let (value, rest) ← operand n before args
    operationFrom n level value rest

/-- Goes on after an operand. -/
def operationFrom : Nat → Nat → String → List String → Part
  | 0, _, value, args => .ok (value, args)
  | n + 1, level, value, args =>
    match args with
    | op :: rest =>
      match level? op with
      | some l =>
        if l < level then .ok (value, args)
        else do
          let (right, rest) ← operation n (l + 1) op rest
          operationFrom n level (← applied op value right) rest
      | none => .ok (value, args)
    | [] => .ok (value, [])

end

/-- The value of arguments. -/
def value (args : List String) : Except String String := do
  let (value, rest) ← operation (4 * args.length + 8) 0 "" args
  match rest with
  | [] => return value
  | extra :: _ => throw ("syntax error: unexpected argument '" ++ extra ++ "'")

end Expr

/-- What `expr` does: its status tells whether the value is missing. -/
def runExpr (e : Effect) (args : List String) : Effect :=
  match if args.head? = some "--" then args.drop 1 else args with
  | [] => e.misuse "missing operand" 2
  | args =>
    match Expr.value args with
    | .error message => e.complain message 2
    | .ok value =>
      { e.write (bytesOf (value ++ "\n")) with status := if Expr.isNull value then 1 else 0 }

/-! ## Waiting -/

/-- How long `sleep` waits for an operand, in milliseconds. -/
def duration? (text : String) : Option Nat :=
  match Fraction.leading? text.toList with
  | none => none
  | some (x, unit) =>
    let seconds := [([], 1), (['s'], 1), (['m'], 60), (['h'], 3600), (['d'], 86400)]
    match seconds.lookup unit, x with
    | some seconds, .finite false n d => some (1000 * seconds * n / d)
    | some _, .infinite false => some endless
    | _, _ => none

/-- What `sleep` does. -/
def runSleep (e : Effect) (args : List String) : Effect :=
  e.withArguments {} 1 args fun a =>
    match a.operands with
    | [] => e.misuse "missing operand" 1
    | operands =>
      match operands.filter fun text => (duration? text).isNone with
      | [] => { e with time := (operands.filterMap duration?).foldl (· + ·) 0 }
      | invalid =>
        let e := invalid.foldl (fun (e : Effect) text =>
          e.complain ("invalid time interval '" ++ text ++ "'") 1) e
        e.tell ("Try '" ++ e.tool ++ " --help' for more information.")

end SoloBuild.Shell
