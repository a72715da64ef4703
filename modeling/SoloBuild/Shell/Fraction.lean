import SoloBuild.Text.Digits

/-!
# Fractions and their decimal texts

A floating-point number is a fraction, and is written with a number of decimal places or digits. A
text between two numbers that can be written is rounded to the nearer one, and to an even one when
both are equally near.
-/

namespace SoloBuild.Shell

open Text

/-- A quotient rounded to the nearest number, a tie to an even one. -/
def roundDiv (n d : Nat) : Nat :=
  let q := n / d
  let r := n % d
  if 2 * r < d then q
  else if d < 2 * r then q + 1
  else if q % 2 = 0 then q else q + 1

/-- A number that is written in decimal: one with a sign, or none that can be written. -/
inductive Fraction where
  | finite (negative : Bool) (numerator denominator : Nat)
  | infinite (negative : Bool)
  | notANumber
  deriving DecidableEq, Repr

namespace Fraction

/-- The number that a floating-point number is. -/
def ofFloat (x : Float) : Fraction :=
  let bits := x.toBits.toNat
  let negative := bits / 9223372036854775808 == 1
  let exponent := bits / 4503599627370496 % 2048
  let mantissa := bits % 4503599627370496
  if exponent = 2047 then if mantissa = 0 then .infinite negative else .notANumber
  else
    let (mantissa, exponent) :=
      if exponent = 0 then (mantissa, 1) else (mantissa + 4503599627370496, exponent)
    if 1075 ≤ exponent then .finite negative (mantissa * Nat.pow 2 (exponent - 1075)) 1
    else .finite negative mantissa (Nat.pow 2 (1075 - exponent))

/-- The floating-point number that a text begins with, and the rest. -/
def leading? (cs : List Char) : Option (Fraction × List Char) :=
  let cs := cs.dropWhile fun c => c == ' ' || ('\t' ≤ c && c ≤ '\r')
  let (negative, cs) := match cs with
    | '-' :: rest => (true, rest)
    | '+' :: rest => (false, rest)
    | cs => (false, cs)
  let lower := cs.map Char.toLower
  if "infinity".toList.isPrefixOf lower then some (.infinite negative, cs.drop 8)
  else if "inf".toList.isPrefixOf lower then some (.infinite negative, cs.drop 3)
  else if "nan".toList.isPrefixOf lower then some (.notANumber, cs.drop 3)
  else
    let whole := cs.takeWhile Char.isDigit
    let cs := cs.drop whole.length
    let (places, cs) := match cs with
      | '.' :: rest => (rest.takeWhile Char.isDigit, rest.dropWhile Char.isDigit)
      | cs => ([], cs)
    if whole.isEmpty && places.isEmpty then none
    else
      let (down, power, cs) : Bool × Nat × List Char := match cs with
        | e :: rest =>
          if e = 'e' ∨ e = 'E' then
            let (down, digits) := match rest with
              | '-' :: rest => (true, rest)
              | '+' :: rest => (false, rest)
              | rest => (false, rest)
            let power := digits.takeWhile Char.isDigit
            if power.isEmpty then (false, 0, cs)
            else (down, decimal power, digits.drop power.length)
          else (false, 0, cs)
        | [] => (false, 0, cs)
      let exponent : Int := (if down then -(power : Int) else power) - places.length
      let x := Float.ofScientific (decimal (whole ++ places)) (exponent < 0) exponent.natAbs
      match ofFloat x with
      | .finite _ n d => some (.finite negative n d, cs)
      | .infinite _ => some (.infinite negative, cs)
      | .notANumber => some (.notANumber, cs)

/-- The digits before and after the point of a number with so many decimal places. -/
def fixed (places n d : Nat) : List Char :=
  let digits := zeroPadded (places + 1) (roundDiv (n * Nat.pow 10 places) d)
  let whole := digits.take (digits.length - places)
  if places = 0 then whole else whole ++ '.' :: digits.drop (digits.length - places)

/-- The power of ten that a number is at least: how often it can be divided by ten, or how often
it has to be multiplied. The first argument bounds that. -/
def magnitude : Nat → Nat → Nat → Int
  | 0, _, _ => 0
  | bound + 1, n, d =>
    if n = 0 then 0
    else if n < d then magnitude bound (n * 10) d - 1
    else if d * 10 ≤ n then magnitude bound n (d * 10) + 1
    else 0

/-- A number rounded to a digit before the point and so many after it, and its power of ten. -/
def rounded (places n d : Nat) : Nat × Int :=
  let power := magnitude 800 n d
  let scale (power : Int) : Nat :=
    let shift : Int := places - power
    roundDiv (n * Nat.pow 10 shift.toNat) (d * Nat.pow 10 (-shift).toNat)
  let digits := scale power
  if digits < Nat.pow 10 (places + 1) then (digits, power) else (digits / 10, power + 1)

/-- An exponent with its sign and at least two digits. -/
def exponentText (e : Char) (power : Int) : List Char :=
  e :: (if power < 0 then '-' else '+') :: zeroPadded 2 power.natAbs

/-- A number with a digit before the point, so many after it, and an exponent. -/
def scientific (e : Char) (places n d : Nat) : List Char :=
  let (digits, power) := rounded places n d
  let digits := zeroPadded (places + 1) digits
  digits.take 1 ++ (if places = 0 then [] else '.' :: digits.drop 1) ++ exponentText e power

/-- A text without the zeros that end its decimal places. -/
def withoutZeros (text : List Char) : List Char :=
  if text.contains '.' then
    let text := text.reverse.dropWhile (· == '0')
    (if text.head? = some '.' then text.drop 1 else text).reverse
  else text

/-- A number with so many digits, with an exponent only where that is shorter. -/
def general (e : Char) (digits n d : Nat) : List Char :=
  let digits := max digits 1
  let (_, power) := rounded (digits - 1) n d
  if power < -4 ∨ (digits : Int) ≤ power then
    let text := scientific e (digits - 1) n d
    withoutZeros (text.takeWhile (· != e)) ++ text.dropWhile (· != e)
  else withoutZeros (fixed ((digits : Int) - 1 - power).toNat n d)

end Fraction

end SoloBuild.Shell
