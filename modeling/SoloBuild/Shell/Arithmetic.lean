import SoloBuild.Shell.Characters
import SoloBuild.Text.Digits

/-!
# Arithmetic of the shell

Integer expressions with the usual operators and their usual precedence. An expression is read as a
whole before it is evaluated; evaluating it may set variables. Numbers are words of 64 bits with a
sign.
-/

namespace SoloBuild.Shell

open Text

/-- Why an expression has no value. -/
inductive ArithmeticError where
  | divisionByZero
  /-- Something else should stand there. -/
  | expecting (what : String)
  /-- A variable has a value that is no number. -/
  | illegalNumber (value : String)
  deriving DecidableEq, Repr

/-- The text that an error in an expression is told with. -/
def ArithmeticError.message (source : List Char) : ArithmeticError → String
  | .divisionByZero => about "division by zero"
  | .expecting what => about ("expecting " ++ what)
  | .illegalNumber value => "Illegal number: " ++ value
where
  about (reason : String) : String :=
    "arithmetic expression: " ++ reason ++ ": \"" ++ String.ofList source ++ "\""

/-! ## Tokens -/

/-- A token of an expression. -/
inductive ArithmeticToken where
  | number (n : Int)
  | name (text : String)
  | symbol (text : String)
  deriving DecidableEq, Repr

/-- The operators that set a variable, with the operator that is applied first. -/
def assigningSymbols : List (String × String) :=
  [("=", ""), ("+=", "+"), ("-=", "-"), ("*=", "*"), ("/=", "/"), ("%=", "%"), ("<<=", "<<"),
    (">>=", ">>"), ("&=", "&"), ("|=", "|"), ("^=", "^")]

/-- The symbols of expressions, longer ones first. -/
def arithmeticSymbols : List String :=
  ["<<=", ">>=", "<=", ">=", "==", "!=", "&&", "||", "<<", ">>", "+=", "-=", "*=", "/=", "%=", "&=",
    "|=", "^=", "+", "-", "*", "/", "%", "(", ")", "<", ">", "!", "~", "&", "|", "^", "?", ":", "="]

/-- The number that a text begins with, and the rest: hexadecimal after `0x`, octal after another
zero, and else decimal. -/
def leadingNumber (cs : List Char) : Nat × List Char :=
  match cs with
  | '0' :: x :: d :: rest =>
    if (x = 'x' ∨ x = 'X') ∧ isHexDigit d then
      let digits := (d :: rest).takeWhile isHexDigit
      (Text.numberOf 16 digits, (d :: rest).drop digits.length)
    else octal cs
  | '0' :: _ => octal cs
  | cs => (decimal (cs.takeWhile Char.isDigit), cs.dropWhile Char.isDigit)
where
  octal (cs : List Char) : Nat × List Char :=
    let digits := cs.takeWhile isOctalDigit
    (Text.numberOf 8 digits, cs.drop digits.length)

/-- The tokens of an expression. The first argument bounds their number. -/
def arithmeticTokens : Nat → List Char → List ArithmeticToken
  | 0, _ => []
  | n + 1, cs =>
    match cs with
    | [] => []
    | c :: rest =>
      if isBlank c then arithmeticTokens n rest
      else if c.isDigit then
        let (value, rest) := leadingNumber cs
        .number (min value 9223372036854775807) :: arithmeticTokens n rest
      else if isNameChar c then
        .name (String.ofList (cs.takeWhile isNameChar)) ::
          arithmeticTokens n (cs.dropWhile isNameChar)
      else
        match arithmeticSymbols.find? fun s => s.toList.isPrefixOf cs with
        | some s => .symbol s :: arithmeticTokens n (cs.drop s.length)
        | none => .symbol (String.ofList [c]) :: arithmeticTokens n rest

/-! ## Expressions -/

/-- An integer expression. -/
inductive Expression where
  | number (n : Int)
  | variable (name : String)
  | unary (op : String) (operand : Expression)
  | binary (op : String) (left right : Expression)
  | conditional (test first second : Expression)
  /-- Sets a variable, to a value that an operator may make from the old one. -/
  | assign (name op : String) (value : Expression)
  deriving Repr, Inhabited

/-- How tightly an operator with two operands binds. -/
def bindingPower (op : String) : Nat :=
  if op = "*" ∨ op = "/" ∨ op = "%" then 10
  else if op = "+" ∨ op = "-" then 9
  else if op = "<<" ∨ op = ">>" then 8
  else if op = "<" ∨ op = ">" ∨ op = "<=" ∨ op = ">=" then 7
  else if op = "==" ∨ op = "!=" then 6
  else if op = "&" then 5
  else if op = "^" then 4
  else if op = "|" then 3
  else if op = "&&" then 2
  else if op = "||" then 1
  else 0

namespace Expression

/-- What reading a part of an expression gives, with the tokens after it. -/
abbrev Part := Except ArithmeticError (Expression × List ArithmeticToken)

mutual

/-- An expression that may set a variable. The first argument of each reader bounds the steps. -/
def readWhole : Nat → List ArithmeticToken → Part
  | 0, _ => .error (.expecting "primary")
  | n + 1, ts =>
    let choice : Part := do
      let (first, rest) ← readOperand n ts
      let (test, rest) ← readOperation n 1 first rest
      match rest with
      | .symbol "?" :: rest =>
        let (first, rest) ← readWhole n rest
        match rest with
        | .symbol ":" :: rest =>
          let (second, rest) ← readWhole n rest
          return (.conditional test first second, rest)
        | _ => .error (.expecting "':'")
      | rest => return (test, rest)
    match ts with
    | .name v :: .symbol s :: rest =>
      match assigningSymbols.lookup s with
      | some op => do
        let (value, rest) ← readWhole n rest
        return (.assign v op value, rest)
      | none => choice
    | _ => choice

/-- An operand. -/
def readOperand : Nat → List ArithmeticToken → Part
  | 0, _ => .error (.expecting "primary")
  | n + 1, ts =>
    match ts with
    | .number k :: rest => .ok (.number k, rest)
    | .name v :: rest => .ok (.variable v, rest)
    | .symbol "(" :: rest => do
      let (inner, rest) ← readWhole n rest
      match rest with
      | .symbol ")" :: rest => return (inner, rest)
      | _ => .error (.expecting "')'")
    | .symbol s :: rest =>
      if s = "-" ∨ s = "+" ∨ s = "!" ∨ s = "~" then do
        let (operand, rest) ← readOperand n rest
        return (.unary s operand, rest)
      else .error (.expecting "primary")
    | [] => .error (.expecting "primary")

/-- An expression whose first operand is read, as far as its operators bind at least so tightly. -/
def readOperation : Nat → Nat → Expression → List ArithmeticToken → Part
  | 0, _, _, _ => .error (.expecting "primary")
  | n + 1, least, left, ts =>
    match ts with
    | .symbol op :: rest =>
      let power := bindingPower op
      if power < least || power = 0 then .ok (left, ts)
      else do
        let (right, rest) ← readOperand n rest
        let (right, rest) ← readOperation n (power + 1) right rest
        readOperation n least (.binary op left right) rest
    | ts => .ok (left, ts)

end

/-- The expression that a text is. -/
def ofText (source : List Char) : Except ArithmeticError Expression := do
  let ts := arithmeticTokens (source.length + 1) source
  let (whole, rest) ← readWhole (3 * ts.length + 3) ts
  if rest.isEmpty then return whole else .error (.expecting "EOF")

/-! ## Values -/

/-- A number brought into 64 bits. -/
def wrapped (n : Int) : Int := Int.bmod n 18446744073709551616

/-- The value of a condition. -/
def truth (b : Bool) : Int := if b then 1 else 0

/-- Words combined bit by bit. -/
def bitwise (combine : UInt64 → UInt64 → UInt64) (a b : Int) : Int :=
  let word (n : Int) : UInt64 := UInt64.ofNat (n % 18446744073709551616).toNat
  wrapped (combine (word a) (word b)).toNat

/-- An operator with two operands. -/
def applied (op : String) (a b : Int) : Except ArithmeticError Int :=
  let divided (n : Int) : Except ArithmeticError Int :=
    if b = 0 then .error .divisionByZero else .ok n
  let places : Nat := (b % 64).toNat
  match op with
  | "*" => .ok (wrapped (a * b))
  | "/" => divided (wrapped (a.tdiv b))
  | "%" => divided (a.tmod b)
  | "+" => .ok (wrapped (a + b))
  | "-" => .ok (wrapped (a - b))
  | "<" => .ok (truth (a < b))
  | ">" => .ok (truth (b < a))
  | "<=" => .ok (truth (a ≤ b))
  | ">=" => .ok (truth (b ≤ a))
  | "==" => .ok (truth (a == b))
  | "!=" => .ok (truth (a != b))
  | "<<" => .ok (wrapped (a * Nat.pow 2 places))
  | ">>" => .ok (a.fdiv (Nat.pow 2 places))
  | "&" => .ok (bitwise (· &&& ·) a b)
  | "|" => .ok (bitwise (· ||| ·) a b)
  | "^" => .ok (bitwise (· ^^^ ·) a b)
  | _ => .ok b

/-- The number that the value of a variable is; no value is zero. -/
def numberOf (value : String) : Except ArithmeticError Int :=
  let text := trimmed value.toList
  let (negative, digits) := match text with
    | '-' :: rest => (true, rest)
    | '+' :: rest => (false, rest)
    | cs => (false, cs)
  let (n, rest) := leadingNumber digits
  let n : Int := if negative then -(n : Int) else n
  if rest.isEmpty && (text.isEmpty || digits.head?.any Char.isDigit) && wrapped n == n then .ok n
  else .error (.illegalNumber value)

/-- The value of an expression, and the variables that it has set so far, the latest first. What the
value does not hang on is not evaluated. -/
def value (lookup : String → String) : Expression → List (String × String) →
    Except ArithmeticError (Int × List (String × String))
  | .number n, done => .ok (wrapped n, done)
  | .variable v, done => do
    return (← numberOf ((done.lookup v).getD (lookup v)), done)
  | .unary op operand, done => do
    let (a, done) ← operand.value lookup done
    let result : Int := match op with
      | "-" => wrapped (-a)
      | "!" => truth (a == 0)
      | "~" => -a - 1
      | _ => a
    return (result, done)
  | .binary op left right, done => do
    let (a, done) ← left.value lookup done
    if op = "&&" ∧ a = 0 then return (0, done)
    else if op = "||" ∧ a ≠ 0 then return (1, done)
    else
      let (b, done) ← right.value lookup done
      if op = "&&" ∨ op = "||" then return (truth (b != 0), done)
      else return (← applied op a b, done)
  | .conditional test first second, done => do
    let (a, done) ← test.value lookup done
    if a = 0 then second.value lookup done else first.value lookup done
  | .assign v op operand, done => do
    let (b, done) ← operand.value lookup done
    let result ← if op.isEmpty then Except.ok b else do
      applied op (← numberOf ((done.lookup v).getD (lookup v))) b
    return (result, (v, toString result) :: done)

end Expression

end SoloBuild.Shell
