import SoloBuild.FileTree.Files
import SoloBuild.Shell.Formatted

/-!
# Conditions

The expressions of `test`: comparisons of texts and numbers, questions about files, and what joins
them. An operand that stands where an operator could stand counts as an operand when that is the
only way to read the expression.
-/

namespace SoloBuild.Shell

open Text

/-- What is at a path, links followed or not. -/
def nodeAt? (t : FileTree) (path : String) (follow : Bool) : Option Node :=
  match t.find (pathOf path) follow with
  | .ok place => place.node?
  | .error _ => none

/-- The devices of the system. -/
def devices : List String :=
  ["/dev/null", "/dev/zero", "/dev/full", "/dev/random", "/dev/urandom", "/dev/tty"]

namespace Condition

/-- Why a text is not a condition. -/
inductive Misuse where
  | unexpectedOperator (text : String)
  | missingOperand (text : String)
  | missingBracket
  | illegalNumber (text : String)
  deriving DecidableEq, Repr

/-- The text that a misuse is told with. -/
def Misuse.message : Misuse → String
  | .unexpectedOperator text => (if text.isEmpty then "" else text ++ ": ") ++ "unexpected operator"
  | .missingOperand text => text ++ ": argument expected"
  | .missingBracket => "closing paren expected"
  | .illegalNumber text => "Illegal number: " ++ text

/-- The operators before an operand. -/
def unaryOperators : List String :=
  ["-n", "-z", "-b", "-c", "-d", "-e", "-f", "-g", "-G", "-h", "-k", "-L", "-O", "-p", "-r", "-s",
    "-S", "-t", "-u", "-w", "-x"]

/-- The operators between operands. -/
def binaryOperators : List String :=
  ["=", "!=", "<", ">", "-eq", "-ne", "-lt", "-le", "-gt", "-ge", "-nt", "-ot", "-ef"]

/-- The number that a whole text is. -/
def number (text : String) : Except Misuse Int :=
  let (negative, digits) := match trimmed text.toList with
    | '-' :: rest => (true, rest)
    | '+' :: rest => (false, rest)
    | cs => (false, cs)
  if digits.isEmpty || !digits.all Char.isDigit then .error (.illegalNumber text)
  else .ok (if negative then -(decimal digits : Int) else decimal digits)

/-- A question about one operand. -/
def unary (t : FileTree) (op operand : String) : Bool :=
  let there := nodeAt? t operand true
  if devices.contains operand then ["-n", "-e", "-r", "-w", "-c", "-O", "-G"].contains op
  else match op with
  | "-n" => !operand.isEmpty
  | "-z" => operand.isEmpty
  | "-e" | "-r" | "-w" | "-O" | "-G" => there.isSome
  | "-f" => match there with | some (.file ..) | some (.program _) => true | _ => false
  | "-d" => there.any Node.isDirectory
  | "-x" => match there with
    | some (.file _ executable) => executable
    | some _ => true
    | none => false
  | "-s" => match there with
    | some (.file content _) => content.size != 0
    | some _ => true
    | none => false
  | "-L" | "-h" => match nodeAt? t operand false with | some (.link _) => true | _ => false
  | _ => false

/-- A comparison of two operands. -/
def binary (t : FileTree) (left op right : String) : Except Misuse Bool :=
  let compare (holds : Int → Int → Bool) : Except Misuse Bool := do
    return holds (← number left) (← number right)
  match op with
  | "=" => .ok (left == right)
  | "!=" => .ok (left != right)
  | "<" => .ok (left < right)
  | ">" => .ok (right < left)
  | "-eq" => compare fun a b => a == b
  | "-ne" => compare fun a b => a != b
  | "-lt" => compare fun a b => a < b
  | "-le" => compare fun a b => a ≤ b
  | "-gt" => compare fun a b => b < a
  | "-ge" => compare fun a b => b ≤ a
  | "-ef" => match t.find (pathOf left) true, t.find (pathOf right) true with
    | .ok ⟨a, some _⟩, .ok ⟨b, some _⟩ => .ok (a == b)
    | _, _ => .ok false
  | _ => .ok false

/-- A text is an operator before an operand, when what follows it is no comparison with it. -/
def isUnary (text : String) (rest : List String) : Bool :=
  unaryOperators.contains text &&
    match rest with
    | [] => false
    | [_] => true
    | op :: right :: _ => !(binaryOperators.contains op && right != ")")

mutual

/-- Conditions of which one has to hold. The first argument of each of these readers bounds the
number of parts; each gives the truth of what it reads and the texts after it. -/
def disjunction : Nat → FileTree → List String → Except Misuse (Bool × List String)
  | 0, _, args => .ok (false, args)
  | n + 1, t, args => do
    let (holds, rest) ← conjunction n t args
    match rest with
    | "-o" :: rest =>
      let (other, rest) ← disjunction n t rest
      return (holds || other, rest)
    | rest => return (holds, rest)

/-- Conditions that all have to hold. -/
def conjunction : Nat → FileTree → List String → Except Misuse (Bool × List String)
  | 0, _, args => .ok (false, args)
  | n + 1, t, args => do
    let (holds, rest) ← negation n t args
    match rest with
    | "-a" :: rest =>
      let (other, rest) ← conjunction n t rest
      return (holds && other, rest)
    | rest => return (holds, rest)

/-- A condition or its opposite. -/
def negation : Nat → FileTree → List String → Except Misuse (Bool × List String)
  | 0, _, args => .ok (false, args)
  | n + 1, t, args =>
    match args with
    | "!" :: next :: rest => do
      let (holds, rest) ← negation n t (next :: rest)
      return (!holds, rest)
    | args => single n t args

/-- One condition. -/
def single : Nat → FileTree → List String → Except Misuse (Bool × List String)
  | 0, _, args => .ok (false, args)
  | n + 1, t, args =>
    match args with
    | [] => .ok (false, [])
    | "(" :: ")" :: rest => .ok (false, rest)
    | "(" :: next :: rest => do
      let (holds, rest) ← disjunction n t (next :: rest)
      match rest with
      | ")" :: rest => return (holds, rest)
      | _ => .error .missingBracket
    | text :: rest =>
      if isUnary text rest then
        match rest with
        | operand :: rest => .ok (unary t text operand, rest)
        | [] => .error (.missingOperand text)
      else
        match rest with
        | op :: right :: rest =>
          if binaryOperators.contains op then do return (← binary t text op right, rest)
          else .ok (!text.isEmpty, op :: right :: rest)
        | [op] =>
          if binaryOperators.contains op then .error (.missingOperand op)
          else .ok (!text.isEmpty, [op])
        | [] => .ok (!text.isEmpty, [])

end

/-- The truth of a condition. A comparison of three texts is one even if the first is an
operator. -/
def holds (t : FileTree) (args : List String) : Except Misuse Bool :=
  let whole (args : List String) : Except Misuse Bool := do
    let (truth, rest) ← disjunction (4 * args.length + 4) t args
    -- What is told about texts after a condition is the last text before them.
    let read := args.take (args.length - rest.length)
    if rest.isEmpty then return truth
    else .error (.unexpectedOperator (read.getLast?.getD ""))
  match args with
  | [left, op, right] =>
    if binaryOperators.contains op then binary t left op right
    else
      match left, right with
      | "(", ")" => whole [op]
      | "!", right => (whole [op, right]).map (!·)
      | _, _ => whole args
  | ["!", a, b, c] => (whole [a, b, c]).map (!·)
  | ["(", a, b, ")"] => whole [a, b]
  | args => whole args

end Condition

end SoloBuild.Shell
