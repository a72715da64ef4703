import SoloBuild.Shell.ByteText
import SoloBuild.Shell.Characters
import SoloBuild.Shell.Fraction

/-!
# Escapes and formats

What `echo` and `printf` write. Escapes stand for single bytes. A format is used again as long as
there are arguments left.
-/

namespace SoloBuild.Shell

open Text

/-! ## Escapes -/

/-- What the text after a backslash stands for. -/
inductive Escape where
  | bytes (bs : List UInt8) (rest : List Char)
  /-- Nothing more is to be written. -/
  | stop

/-- Up to so many octal digits. -/
def octalDigits (bound : Nat) (cs : List Char) : List Char := (cs.take bound).takeWhile isOctalDigit

/-- Reads an escape of a format: up to three octal digits stand for a byte. -/
def formatEscape (cs : List Char) : List UInt8 × List Char :=
  match cs with
  | 'a' :: rest => ([7], rest)
  | 'b' :: rest => ([8], rest)
  | 't' :: rest => ([9], rest)
  | 'n' :: rest => ([10], rest)
  | 'v' :: rest => ([11], rest)
  | 'f' :: rest => ([12], rest)
  | 'r' :: rest => ([13], rest)
  | 'e' :: rest => ([27], rest)
  | '\\' :: rest => ([92], rest)
  | cs =>
    let digits := octalDigits 3 cs
    if digits.isEmpty then ([92], cs)
    else ([UInt8.ofNat (numberOf 8 digits)], cs.drop digits.length)

/-- Reads an escape of a text: a zero may come before the octal digits, and there is one that ends
everything. -/
def textEscape (cs : List Char) : Escape :=
  match cs with
  | 'c' :: _ => .stop
  | '0' :: d :: rest =>
    let (bs, rest) := formatEscape (if isOctalDigit d then d :: rest else cs)
    .bytes bs rest
  | cs =>
    let (bs, rest) := formatEscape cs
    .bytes bs rest

/-- A text with its escapes, and whether more may follow it. The first argument bounds the number of
characters. -/
def escaped : Nat → List Char → List UInt8 × Bool
  | 0, _ => ([], true)
  | n + 1, cs =>
    match cs with
    | [] => ([], true)
    | '\\' :: rest =>
      match textEscape rest with
      | .stop => ([], false)
      | .bytes bs rest =>
        let (more, goesOn) := escaped n rest
        (bs ++ more, goesOn)
    | c :: rest =>
      let (more, goesOn) := escaped n rest
      (bytesOfChars [c] ++ more, goesOn)

/-- What `echo` writes. -/
def echoed (args : List String) : List UInt8 :=
  let (newline, words) := match args with
    | "-n" :: rest => (false, rest)
    | args => (true, args)
  let text := (" ".intercalate words).toList
  let (bytes, goesOn) := escaped (text.length + 1) text
  if newline && goesOn then bytes ++ [10] else bytes

/-! ## Numbers -/

/-- The integer that a text begins with, and the rest: hexadecimal after `0x`, octal after another
zero, and else decimal. Nothing is a number if there are no digits. -/
def leadingInteger? (cs : List Char) : Option (Int × List Char) :=
  let cs := cs.dropWhile fun c => c == ' ' || ('\t' ≤ c && c ≤ '\r')
  let (negative, cs) := match cs with
    | '-' :: rest => (true, rest)
    | '+' :: rest => (false, rest)
    | cs => (false, cs)
  let signed (base : Nat) (digits : List Char) : Int :=
    if negative then -(numberOf base digits : Int) else numberOf base digits
  let octal (cs : List Char) : Int × List Char :=
    (signed 8 (cs.takeWhile isOctalDigit), cs.dropWhile isOctalDigit)
  match cs with
  | '0' :: x :: d :: rest =>
    if (x = 'x' ∨ x = 'X') ∧ isHexDigit d then
      some (signed 16 ((d :: rest).takeWhile isHexDigit), (d :: rest).dropWhile isHexDigit)
    else some (octal cs)
  | '0' :: _ => some (octal cs)
  | cs =>
    let digits := cs.takeWhile Char.isDigit
    if digits.isEmpty then none else some (signed 10 digits, cs.drop digits.length)

/-- What is wrong with an argument that should be a number. -/
def conversionFault? (arg : String) (rest : Option (List Char)) : Option String :=
  match rest with
  | none => if arg.isEmpty then none else some (arg ++ ": expected numeric value")
  | some [] => none
  | some _ => some (arg ++ ": not completely converted")

/-- The integer that an argument is between two bounds, and what is wrong with it. After a quote the
argument is the code of a character. -/
def integerBetween (least most : Int) (wraps : Bool) (arg : String) : Int × Option String :=
  match arg.toList with
  | '\'' :: rest | '"' :: rest => (((rest.head?.map Char.toNat).getD 0 : Nat), none)
  | cs =>
    match leadingInteger? cs with
    | none => (0, conversionFault? arg none)
    | some (value, rest) =>
      let range : Option String := some (arg ++ ": Numerical result out of range")
      let (inRange, fault) : Int × Option String :=
        if most < value then (most, range)
        else if value < least then (if wraps then most else least, range)
        else if value < 0 && wraps then (value + most + 1, none)
        else (value, none)
      (inRange, (conversionFault? arg (some rest)).or fault)

/-- A word with a sign. -/
def signedArgument (arg : String) : Int × Option String :=
  integerBetween (-9223372036854775808) 9223372036854775807 false arg

/-- A word without a sign; a negative number is brought into it. -/
def unsignedArgument (arg : String) : Int × Option String :=
  integerBetween (-18446744073709551615) 18446744073709551615 true arg

/-! ## Directives -/

/-- A directive of a format. -/
structure Directive where
  flags : List Char := []
  width : Nat := 0
  precision : Option Nat := none
  conversion : Char

namespace Directive

/-- A flag is given. -/
def has (d : Directive) (flag : Char) : Bool := d.flags.contains flag

/-- Text brought to a width. -/
def padded (d : Directive) (zeros : Bool) (sign body : List Char) : List Char :=
  let missing := d.width - (sign.length + body.length)
  if d.has '-' then sign ++ body ++ List.replicate missing ' '
  else if zeros && d.has '0' then sign ++ List.replicate missing '0' ++ body
  else List.replicate missing ' ' ++ sign ++ body

/-- The sign of a number. -/
def sign (d : Directive) (negative : Bool) : List Char :=
  if negative then ['-'] else if d.has '+' then ['+'] else if d.has ' ' then [' '] else []

/-- A number with at least as many digits as the precision asks for. -/
def digits (d : Directive) (base n : Nat) : List Char :=
  let digits := if n = 0 ∧ d.precision = some 0 then [] else Nat.toDigits base n
  List.replicate (d.precision.getD 1 - digits.length) '0' ++ digits

/-- An integer with a sign. -/
def signed (d : Directive) (n : Int) : List Char :=
  d.padded d.precision.isNone (d.sign (n < 0)) (d.digits 10 n.natAbs)

/-- An integer without a sign. -/
def unsigned (d : Directive) (n : Nat) : List Char :=
  let body : Nat → List Char := fun base => d.digits base n
  let marked := d.has '#' && n != 0
  match d.conversion with
  | 'o' =>
    let body := body 8
    d.padded d.precision.isNone []
      (if d.has '#' && body.head? != some '0' then '0' :: body else body)
  | 'x' => d.padded d.precision.isNone (if marked then ['0', 'x'] else []) (body 16)
  | 'X' =>
    d.padded d.precision.isNone (if marked then ['0', 'X'] else []) ((body 16).map Char.toUpper)
  | _ => d.padded d.precision.isNone [] (body 10)

/-- A number with decimal places. -/
def fraction (d : Directive) (x : Fraction) : List Char :=
  let upper (text : List Char) : List Char :=
    if d.conversion.isUpper then text.map Char.toUpper else text
  match x with
  | .notANumber => d.padded false [] (upper "nan".toList)
  | .infinite negative => d.padded false (d.sign negative) (upper "inf".toList)
  | .finite negative n den =>
    let places := d.precision.getD 6
    let body := match d.conversion.toLower with
      | 'f' => Fraction.fixed places n den
      | 'e' => Fraction.scientific 'e' places n den
      | _ => Fraction.general 'e' places n den
    d.padded true (d.sign negative) (upper body)

end Directive

/-! ## Formats -/

/-- Writing by a format: the arguments left, what is written, the latest first, and what is told
about arguments. -/
structure Formatting where
  args : List String
  written : List (List UInt8) := []
  faults : List String := []
  /-- Nothing more is written. -/
  stopped : Bool := false
  /-- The format itself is wrong. -/
  isBroken : Bool := false

namespace Formatting

/-- Writes bytes. -/
def write (f : Formatting) (bytes : List UInt8) : Formatting :=
  { f with written := bytes :: f.written }

/-- Takes an argument; one that is missing is empty. -/
def takeText (f : Formatting) : String × Formatting :=
  (f.args.head?.getD "", { f with args := f.args.tail })

/-- Takes a number. One that is missing is zero. -/
def takeNumber {α : Type} (read : String → α × Option String) (f : Formatting) : α × Formatting :=
  let (text, f) := f.takeText
  let (value, fault) := read text
  (value, { f with faults := f.faults ++ fault.toList })

/-- The format is wrong. -/
def broken (f : Formatting) (fault : String) : Formatting :=
  { f with faults := f.faults ++ [fault], stopped := true, isBroken := true }

/-- A number in the text after a percent sign: digits, or an argument. -/
def number (f : Formatting) (cs : List Char) : Option Int × List Char × Formatting :=
  match cs with
  | '*' :: rest =>
    let (n, f) := f.takeNumber signedArgument
    (some n, rest, f)
  | cs =>
    let digits := cs.takeWhile Char.isDigit
    (if digits.isEmpty then none else some (decimal digits), cs.drop digits.length, f)

/-- The number that an argument is, as a fraction, and what is wrong with it. -/
def fractionArgument (arg : String) : Fraction × Option String :=
  match arg.toList with
  | '\'' :: c :: _ | '"' :: c :: _ => (.finite false c.toNat 1, none)
  | cs =>
    match Fraction.leading? cs with
    | some (x, rest) => (x, conversionFault? arg (some rest))
    | none => (.finite false 0 1, conversionFault? arg none)

/-- Writes an argument as a directive tells; `source` is the text of the directive. -/
def convert (f : Formatting) (d : Directive) (source : List Char) : Formatting :=
  let cut (text : List Char) : List Char :=
    match d.precision with
    | some n => text.take n
    | none => text
  match d.conversion with
  | 's' =>
    let (text, f) := f.takeText
    f.write (bytesOfChars (d.padded false [] (cut text.toList)))
  | 'b' =>
    let (text, f) := f.takeText
    let (bytes, goesOn) := escaped (text.length + 1) text.toList
    { f.write (bytesOfChars (d.padded false [] (cut (textOf bytes)))) with stopped := !goesOn }
  | 'c' =>
    let (text, f) := f.takeText
    f.write (bytesOfChars (d.padded false [] [text.toList.headD '\x00']))
  | 'd' | 'i' =>
    let (n, f) := f.takeNumber signedArgument
    f.write (bytesOfChars (d.signed n))
  | 'o' | 'u' | 'x' | 'X' =>
    let (n, f) := f.takeNumber unsignedArgument
    f.write (bytesOfChars (d.unsigned n.toNat))
  | 'e' | 'E' | 'f' | 'F' | 'g' | 'G' =>
    let (x, f) := f.takeNumber fractionArgument
    f.write (bytesOfChars (d.fraction x))
  | _ => f.broken (String.ofList source ++ ": invalid directive")

/-- Writes a format once. The first argument bounds the number of characters. -/
def once : Nat → Formatting → List Char → Formatting
  | 0, f, _ => f
  | n + 1, f, cs =>
    if f.stopped then f
    else
      match cs with
      | [] => f
      | '%' :: '%' :: rest => once n (f.write [37]) rest
      | '%' :: rest =>
        let flags := rest.takeWhile fun c => "#-+ 0".toList.contains c
        let (width, after, f) := f.number (rest.drop flags.length)
        let (precision, after, f) := match after with
          | '.' :: after =>
            let (precision, after, f) := f.number after
            (some (precision.getD 0), after, f)
          | after => (none, after, f)
        match after with
        | [] => f.broken "missing format character"
        | conversion :: after =>
          let flags := if width.any (· < 0) then '-' :: flags else flags
          let d : Directive := {
            flags, width := (width.getD 0).natAbs, conversion
            precision := precision.bind fun p => if p < 0 then none else some p.toNat }
          let source := cs.take (cs.length - after.length)
          once n (f.convert d source) after
      | '\\' :: rest =>
        let (bytes, rest) := formatEscape rest
        once n (f.write bytes) rest
      | c :: rest => once n (f.write (bytesOfChars [c])) rest

/-- Writes a format as often as there are arguments for it. The first argument bounds how often. -/
def all : Nat → List Char → Formatting → Formatting
  | 0, _, f => f
  | n + 1, format, f =>
    let after := once (format.length + 1) f format
    if after.stopped || after.args.isEmpty || after.args.length = f.args.length then after
    else all n format after

end Formatting

/-- Writing arguments by a format. -/
def formatted (format : String) (args : List String) : Formatting :=
  Formatting.all (args.length + 1) format.toList { args }

end SoloBuild.Shell
