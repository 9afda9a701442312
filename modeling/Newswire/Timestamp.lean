import Newswire.Text.Blank
import Newswire.Text.Digits

/-!
# Points in time

A `Timestamp` is a point in time on the UTC scale, read from and written as a date and a time of
day with an offset (RFC 3339).  Reading is lenient: blanks may stand around the parts, a blank may
separate date and time, and numbers may be short.  Leap seconds are kept.
-/

namespace Newswire

/-- A point in time. -/
structure Timestamp where
  /-- Seconds since the beginning of 1970. -/
  seconds : Int
  /-- Nanoseconds on top; from 1000000000 on they count into a leap second. -/
  nanos : Nat
  deriving DecidableEq, Repr, Inhabited

namespace Timestamp

-- Powers are those of the core library, also where a library of algebra brings its own.
attribute [local instance (20000)] instPowNat

/-- `t` is at `s` or later. -/
def notBefore (t s : Timestamp) : Bool :=
  s.seconds < t.seconds || (s.seconds == t.seconds && s.nanos ≤ t.nanos)

/-! ### Calendar -/

/-- Leap years of the Gregorian calendar. -/
def isLeap (year : Int) : Bool := year % 4 == 0 && (year % 100 != 0 || year % 400 == 0)

/-- How many days a month has. -/
def daysInMonth (year : Int) (month : Nat) : Nat :=
  match month with
  | 2 => if isLeap year then 29 else 28
  | 4 | 6 | 9 | 11 => 30
  | _ => 31

/-- Days from the beginning of 1970 to a date, counted in years that begin in March. -/
def daysOfDate (year : Int) (month day : Nat) : Int :=
  let y := if month ≤ 2 then year - 1 else year
  let era := y.fdiv 400
  let yearOfEra := (y - era * 400).toNat
  let dayOfYear := (153 * ((month + 9) % 12) + 2) / 5 + (day - 1)
  let dayOfEra := yearOfEra * 365 + yearOfEra / 4 - yearOfEra / 100 + dayOfYear
  era * 146097 + dayOfEra - 719468

/-- Year, month and day of the date that many days after the beginning of 1970. -/
def dateOfDays (days : Int) : Int × Nat × Nat :=
  let z := days + 719468
  let era := z.fdiv 146097
  let dayOfEra := (z - era * 146097).toNat
  let yearOfEra := (dayOfEra - dayOfEra / 1460 + dayOfEra / 36524 - dayOfEra / 146096) / 365
  let dayOfYear := dayOfEra - (365 * yearOfEra + yearOfEra / 4 - yearOfEra / 100)
  let shifted := (5 * dayOfYear + 2) / 153
  let day := dayOfYear - (153 * shifted + 2) / 5 + 1
  let month := if shifted < 10 then shifted + 3 else shifted - 9
  let year := (yearOfEra : Int) + era * 400
  (if month ≤ 2 then year + 1 else year, month, day)

/-- The first second of the calendar, whose years go from -262143 to 262142. -/
def firstSecond : Int := daysOfDate (-262143) 1 1 * 86400

/-- The last second of the calendar. -/
def lastSecond : Int := daysOfDate 262143 1 1 * 86400 - 1

/-- The year is in the calendar. -/
def hasYear (year : Int) : Bool := -262143 ≤ year && year ≤ 262142

/-! ### Reading -/

/-- Blanks taken from the front. -/
def dropBlanks (cs : List Char) : List Char := cs.dropWhile Text.isBlank

/-- A number of at least one and at most `width` digits after blanks, and the rest. -/
def number? (width : Nat) (cs : List Char) : Option (Nat × List Char) :=
  let cs := dropBlanks cs
  let digits := (cs.take width).takeWhile Text.isDigit
  if digits.isEmpty then none else some (Text.natOfDigits digits, cs.drop digits.length)

/-- A year after blanks: four digits at most, or a sign and any number of digits. -/
def year? (cs : List Char) : Option (Int × List Char) :=
  match dropBlanks cs with
  | '-' :: rest => (number? rest.length rest).bind fun (n, more) =>
    if (rest.head?.map Text.isDigit).getD false then some (-(n : Int), more) else none
  | '+' :: rest => (number? rest.length rest).bind fun (n, more) =>
    if (rest.head?.map Text.isDigit).getD false then some ((n : Int), more) else none
  | rest => (number? 4 rest).map fun (n, more) => ((n : Int), more)

/-- The character `c` after blanks. -/
def mark? (c : Char) (cs : List Char) : Option (List Char) :=
  match dropBlanks cs with
  | x :: rest => if x = c then some rest else none
  | [] => none

/-- The nanoseconds after a point: nine digits count, further ones are passed over. -/
def fraction? (cs : List Char) : Option (Nat × List Char) :=
  match cs with
  | '.' :: rest =>
    let digits := rest.takeWhile Text.isDigit
    if digits.isEmpty then none
    else
      let nine := digits.take 9
      some (Text.natOfDigits nine * 10 ^ (9 - nine.length), rest.drop digits.length)
  | _ => some (0, cs)

/-- Two digits and the rest. -/
def twoDigits? (cs : List Char) : Option (Nat × List Char) :=
  match cs with
  | a :: b :: rest =>
    if Text.isDigit a && Text.isDigit b then some (Text.natOfDigits [a, b], rest) else none
  | _ => none

/-- The offset from UTC in seconds, and the rest. -/
def offset? (cs : List Char) : Option (Int × List Char) :=
  let signed (negative : Bool) (rest : List Char) : Option (Int × List Char) := do
    let (hours, rest) ← twoDigits? rest
    let rest := rest.dropWhile fun c => c == ':' || Text.isBlank c
    let (minutes, rest) ← twoDigits? rest
    if 60 ≤ minutes then none
    else
      let seconds : Int := hours * 3600 + minutes * 60
      return (if negative then -seconds else seconds, rest)
  match dropBlanks cs with
  | 'Z' :: rest | 'z' :: rest => some (0, rest)
  | '+' :: rest => signed false rest
  | '-' :: rest | '\u2212' :: rest => signed true rest
  | u :: t :: c :: rest =>
    if Text.asciiLower (String.ofList [u, t, c]) == "utc" then some (0, rest) else none
  | _ => none

/-- The point in time that a text denotes. -/
def read? (text : String) : Option Timestamp := do
  let (year, cs) ← year? text.toList
  let cs ← mark? '-' cs
  let (month, cs) ← number? 2 cs
  let cs ← mark? '-' cs
  let (day, cs) ← number? 2 cs
  let cs ← match cs with
    | 'T' :: rest | 't' :: rest | ' ' :: rest => some rest
    | _ => none
  let (hour, cs) ← number? 2 cs
  let cs ← mark? ':' cs
  let (minute, cs) ← number? 2 cs
  let cs ← mark? ':' cs
  let (second, cs) ← number? 2 cs
  let (nanos, cs) ← fraction? cs
  let (offset, cs) ← offset? cs
  let inRange : Bool := hasYear year && 1 ≤ month && month ≤ 12 && 1 ≤ day &&
    day ≤ daysInMonth year month && hour ≤ 23 && minute ≤ 59 && second ≤ 60 &&
    offset.natAbs < 86400 && (dropBlanks cs).isEmpty
  if !inRange then none
  else
    let ofDay : Int := hour * 3600 + minute * 60 + (min second 59)
    let seconds := daysOfDate year month day * 86400 + ofDay - offset
    -- the offset may lead out of the calendar
    if firstSecond ≤ seconds && seconds ≤ lastSecond then
      return ⟨seconds, nanos + if second = 60 then 1000000000 else 0⟩
    else none

/-! ### Writing -/

/-- A number with zeros in front up to `width` digits. -/
def padded (width n : Nat) : String :=
  let digits := Text.natDigits n
  String.ofList (List.replicate (width - digits.length) '0' ++ digits)

/-- The fraction of a second in the fewest of three, six and nine digits; none for zero. -/
def fractionText (nanos : Nat) : String :=
  if nanos = 0 then ""
  else if nanos % 1000000 = 0 then "." ++ padded 3 (nanos / 1000000)
  else if nanos % 1000 = 0 then "." ++ padded 6 (nanos / 1000)
  else "." ++ padded 9 nanos

/-- A point in time in UTC. -/
def text (t : Timestamp) : String :=
  let days := t.seconds.fdiv 86400
  let ofDay := (t.seconds - days * 86400).toNat
  let (year, month, day) := dateOfDays days
  let leap := 1000000000 ≤ t.nanos
  let second := ofDay % 60 + if leap then 1 else 0
  let nanos := if leap then t.nanos - 1000000000 else t.nanos
  let yearText :=
    if 0 ≤ year ∧ year ≤ 9999 then padded 4 year.toNat
    else (if year < 0 then "-" else "+") ++ padded 4 year.natAbs
  yearText ++ "-" ++ padded 2 month ++ "-" ++ padded 2 day ++ "T" ++ padded 2 (ofDay / 3600) ++
    ":" ++ padded 2 (ofDay / 60 % 60) ++ ":" ++ padded 2 second ++ fractionText nanos ++ "Z"

end Timestamp

end Newswire
