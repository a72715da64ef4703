import SoloBuild.Text.Digits
import SoloBuild.Text.Splitting

/-!
# Dates and times

A calendar date, a time of day, or both, and with both maybe an offset from universal time. They are
read as a document may write them, and written in one form: with a `T` between date and time, with
seconds, and with no zeros at the end of a fraction.
-/

namespace SoloBuild.Toml

open Text

/-- A date of the calendar. -/
structure Date where
  year : Nat
  month : Nat
  day : Nat
  deriving DecidableEq, Repr

/-- A time of day. -/
structure TimeOfDay where
  hour : Nat
  minute : Nat
  second : Nat
  nanosecond : Nat
  deriving DecidableEq, Repr

/-- How far a time is from universal time. -/
inductive Offset where
  | universal
  | minutes (n : Int)
  deriving DecidableEq, Repr

/-- A date, a time, or both. -/
structure Datetime where
  date : Option Date
  time : Option TimeOfDay
  offset : Option Offset
  deriving DecidableEq, Repr

/-! ## Reading -/

/-- The number that the text begins with, when it has so many digits, and the rest. -/
def readNumber? (count : Nat) (cs : List Char) : Option (Nat × List Char) :=
  let digits := cs.takeWhile Char.isDigit
  if digits.length = count then some (decimal digits, cs.drop count) else none

/-- A year whose February has 29 days. -/
def isLeapYear (year : Nat) : Bool :=
  year % 4 == 0 && (year % 100 != 0 || year % 400 == 0)

def daysInMonth (year month : Nat) : Nat :=
  if month = 2 then (if isLeapYear year then 29 else 28)
  else if month = 4 ∨ month = 6 ∨ month = 9 ∨ month = 11 then 30
  else 31

/-- The date that the text begins with, and the rest. -/
def readDate? (cs : List Char) : Option (Date × List Char) := do
  let (year, rest) ← readNumber? 4 cs
  let (month, rest) ← readNumber? 2 (← afterFront? ['-'] rest)
  let (day, rest) ← readNumber? 2 (← afterFront? ['-'] rest)
  if 1 ≤ month ∧ month ≤ 12 ∧ 1 ≤ day ∧ day ≤ daysInMonth year month then
    return ({ year, month, day }, rest)
  else none

/-- The hours and minutes that the text begins with, and the rest. -/
def readClock? (cs : List Char) : Option (Nat × Nat × List Char) := do
  let (hour, rest) ← readNumber? 2 cs
  let (minute, rest) ← readNumber? 2 (← afterFront? [':'] rest)
  if hour < 24 ∧ minute < 60 then return (hour, minute, rest) else none

/-- The nanoseconds that the digits of a fraction write; digits after the ninth do not count. -/
def nanoseconds (digits : List Char) : Nat :=
  decimal ((digits ++ List.replicate 9 '0').take 9)

/-- The time of day that the text begins with, and the rest. Seconds may be left out, and a leap
second is allowed at the end of every minute. -/
def readTime? (cs : List Char) : Option (TimeOfDay × List Char) := do
  let (hour, minute, rest) ← readClock? cs
  match rest with
  | ':' :: rest =>
    let (second, rest) ← readNumber? 2 rest
    if 60 < second then none
    else
      match rest with
      | '.' :: rest =>
        let digits := rest.takeWhile Char.isDigit
        if digits.isEmpty then none
        else
          return ({ hour, minute, second, nanosecond := nanoseconds digits },
            rest.drop digits.length)
      | rest => return ({ hour, minute, second, nanosecond := 0 }, rest)
  | rest => return ({ hour, minute, second := 0, nanosecond := 0 }, rest)

/-- The offset that a whole text is; no text is no offset. -/
def readOffset? (cs : List Char) : Option (Option Offset) :=
  let signed (sign : Int) (cs : List Char) : Option (Option Offset) := do
    let (hours, minutes, rest) ← readClock? cs
    if rest.isEmpty then return some (.minutes (sign * (60 * hours + minutes : Nat))) else none
  match cs with
  | [] => some none
  | ['Z'] | ['z'] => some (some .universal)
  | '+' :: cs => signed 1 cs
  | '-' :: cs => signed (-1) cs
  | _ => none

/-- The date, the time or both that a whole text is. -/
def Datetime.read? (cs : List Char) : Option Datetime :=
  match readDate? cs with
  | some (date, []) => some { date, time := none, offset := none }
  | some (date, c :: rest) => do
    if c = 'T' ∨ c = 't' ∨ c = ' ' then
      let (time, rest) ← readTime? rest
      return { date, time, offset := ← readOffset? rest }
    else none
  | none => do
    let (time, rest) ← readTime? cs
    if rest.isEmpty then return { date := none, time, offset := none } else none

/-! ## Writing -/

def Date.text (d : Date) : List Char :=
  zeroPadded 4 d.year ++ '-' :: zeroPadded 2 d.month ++ '-' :: zeroPadded 2 d.day

def TimeOfDay.text (t : TimeOfDay) : List Char :=
  let fraction := ((zeroPadded 9 t.nanosecond).reverse.dropWhile (· == '0')).reverse
  zeroPadded 2 t.hour ++ ':' :: zeroPadded 2 t.minute ++ ':' :: zeroPadded 2 t.second ++
    (if fraction.isEmpty then [] else '.' :: fraction)

/-- Hours and minutes with a sign; no offset counts as one forward. -/
def Offset.text : Offset → List Char
  | universal => ['Z']
  | minutes n =>
    (if n < 0 then '-' else '+') ::
      zeroPadded 2 (n.natAbs / 60) ++ ':' :: zeroPadded 2 (n.natAbs % 60)

/-- The one form in which a date or a time is written. -/
def Datetime.text (d : Datetime) : List Char :=
  (d.date.map Date.text).getD [] ++
    (if d.date.isSome && d.time.isSome then ['T'] else []) ++
    (d.time.map TimeOfDay.text).getD [] ++ (d.offset.map Offset.text).getD []

example : (Datetime.read? "1979-05-27 07:32:00.500z".toList).map (String.ofList ·.text) =
    some "1979-05-27T07:32:00.5Z" := by decide +kernel

example : (Datetime.read? "07:32".toList).map (String.ofList ·.text) = some "07:32:00" := by
  decide +kernel

end SoloBuild.Toml
