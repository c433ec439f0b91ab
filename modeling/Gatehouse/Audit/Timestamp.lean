import Gatehouse.Text

/-!
# Timestamps

What this file fixes:

* `Date`, `Date.next`, `Date.previous`: days of the proleptic Gregorian calendar;
* `Timestamp`: a moment in UTC, to the nanosecond. The second 60 is a leap second;
* `Timestamp.read?`: the moment that a date, a time and an offset name. Numbers may lack leading
  zeros and blanks may stand between the parts; digits beyond the nanosecond are dropped;
* `Timestamp.text`: the moment with the fewest of 0, 3, 6 or 9 digits that lose nothing.
-/

namespace Gatehouse.Audit

/-! ## 1. Days -/

/-- A day. -/
structure Date where
  year : Int
  month : Nat
  day : Nat
  deriving DecidableEq, Repr

namespace Date

/-- The year has a 29th of February. -/
def isLeap (year : Int) : Bool := year % 4 == 0 && (year % 100 != 0 || year % 400 == 0)

/-- The number of days of a month. -/
def daysIn (year : Int) (month : Nat) : Nat :=
  if month = 2 then (if isLeap year then 29 else 28)
  else if month = 4 ∨ month = 6 ∨ month = 9 ∨ month = 11 then 30
  else 31

/-- The years that dates are kept to. -/
def inRange (year : Int) : Bool := -262143 ≤ year && year ≤ 262142

/-- The day of the calendar with the given numbers, if there is one. -/
def ofNumbers? (year : Int) (month day : Nat) : Option Date :=
  if inRange year ∧ 1 ≤ month ∧ month ≤ 12 ∧ 1 ≤ day ∧ day ≤ daysIn year month then
    some ⟨year, month, day⟩
  else none

/-- The day after. -/
def next (d : Date) : Date :=
  if d.day < daysIn d.year d.month then { d with day := d.day + 1 }
  else if d.month < 12 then ⟨d.year, d.month + 1, 1⟩
  else ⟨d.year + 1, 1, 1⟩

/-- The day before. -/
def previous (d : Date) : Date :=
  if 1 < d.day then { d with day := d.day - 1 }
  else if 1 < d.month then ⟨d.year, d.month - 1, daysIn d.year (d.month - 1)⟩
  else ⟨d.year - 1, 12, 31⟩

/-- The day that comes the given number of days after the first of March of the year 0. -/
def ofDayNumber (n : Int) : Date :=
  let era := n / 146097
  let dayOfEra := (n % 146097).toNat
  let yearOfEra := (dayOfEra - dayOfEra / 1460 + dayOfEra / 36524 - dayOfEra / 146096) / 365
  let dayOfYear := dayOfEra - (365 * yearOfEra + yearOfEra / 4 - yearOfEra / 100)
  let shifted := (5 * dayOfYear + 2) / 153
  let month := if shifted < 10 then shifted + 3 else shifted - 9
  let year := era * 400 + yearOfEra
  ⟨if month ≤ 2 then year + 1 else year, month, dayOfYear - (153 * shifted + 2) / 5 + 1⟩

end Date

/-! ## 2. Moments -/

/-- A moment in UTC. -/
structure Timestamp where
  date : Date
  hour : Nat
  minute : Nat
  second : Nat
  nano : Nat
  deriving DecidableEq, Repr

namespace Timestamp

/-- The moment that a local time names where clocks run ahead of UTC by the given minutes, less
    than a day in either direction. -/
def ofLocal (t : Timestamp) (ahead : Int) : Timestamp :=
  let minutes : Int := (t.hour * 60 + t.minute : Nat) - ahead
  let ofDay := (minutes % 1440).toNat
  let date :=
    if minutes < 0 then t.date.previous else if minutes < 1440 then t.date else t.date.next
  { t with date := date, hour := ofDay / 60, minute := ofDay % 60 }

/-- The moment that comes the given number of seconds after the start of 1970. -/
def ofEpoch (seconds nano : Nat) : Timestamp :=
  let ofDay := seconds % 86400
  ⟨.ofDayNumber (seconds / 86400 + 719468 : Nat), ofDay / 3600, ofDay / 60 % 60, ofDay % 60, nano⟩

/-! ## 3. Reading -/

/-- A text without the blanks at its start. -/
abbrev skip (cs : List Char) : List Char := Text.trimStart cs

/-- A run of at least one and at most `width` digits, and what follows it. -/
def digits? (width : Nat) (cs : List Char) : Option (List Char × List Char) :=
  let ds := (cs.take width).takeWhile Char.isDigit
  if ds.isEmpty then none else some (ds, cs.drop ds.length)

/-- A number of at most two digits after blanks, and what follows it. -/
def number? (cs : List Char) : Option (Nat × List Char) :=
  (digits? 2 (skip cs)).map fun p => (Text.decimalValue p.1, p.2)

/-- A year after blanks: at most four digits, or a sign and any number of digits. -/
def year? (cs : List Char) : Option (Int × List Char) :=
  let signed (sign : Int) (rest : List Char) : Option (Int × List Char) :=
    (digits? rest.length rest).map fun p => (sign * Text.decimalValue p.1, p.2)
  match skip cs with
  | '-' :: rest => signed (-1) rest
  | '+' :: rest => signed 1 rest
  | rest => (digits? 4 rest).map fun p => ((Text.decimalValue p.1 : Int), p.2)

/-- What follows a given character, which blanks may come before. -/
def after? (c : Char) (cs : List Char) : Option (List Char) :=
  match skip cs with
  | d :: rest => if d = c then some rest else none
  | [] => none

/-- A point and the nanoseconds after it, if there is a point, and what follows. -/
def nano? : List Char → Option (Nat × List Char)
  | '.' :: cs =>
      (digits? 9 cs).map fun p =>
        (Text.decimalValue p.1 * Nat.pow 10 (9 - p.1.length), p.2.dropWhile Char.isDigit)
  | cs => some (0, cs)

/-- Two digits and what follows them. -/
def pair? : List Char → Option (Nat × List Char)
  | a :: b :: rest =>
      if a.isDigit && b.isDigit then some (Text.decimalValue [a, b], rest) else none
  | _ => none

/-- A sign and what follows it; the sign of subtraction counts as one. -/
def sign? : List Char → Option (Int × List Char)
  | '+' :: rest => some (1, rest)
  | '-' :: rest => some (-1, rest)
  | '\u2212' :: rest => some (-1, rest)
  | _ => none

/-- An offset from UTC in minutes, and what follows it. -/
def offset? (cs : List Char) : Option (Int × List Char) :=
  match cs with
  | 'Z' :: rest => some (0, rest)
  | 'z' :: rest => some (0, rest)
  | _ =>
      if Text.sameIgnoringCase (String.ofList (cs.take 3)) "UTC" then some (0, cs.drop 3)
      else (sign? cs).bind fun (sign, afterSign) =>
        (pair? afterSign).bind fun (hours, afterHours) =>
          let rest := afterHours.dropWhile fun c => c == ':' || Text.isBlank c
          (pair? rest).bind fun (minutes, tail) =>
            if hours < 24 ∧ minutes < 60 then some (sign * (hours * 60 + minutes : Nat), tail)
            else none

/-- The character between date and time. -/
def separator? : List Char → Option (List Char)
  | c :: rest => if c = 'T' ∨ c = 't' ∨ c = ' ' then some rest else none
  | [] => none

/-- A day and what follows it. -/
def date? (cs : List Char) : Option (Date × List Char) := do
  let (year, cs) ← year? cs
  let cs ← after? '-' cs
  let (month, cs) ← number? cs
  let cs ← after? '-' cs
  let (day, cs) ← number? cs
  let date ← Date.ofNumbers? year month day
  some (date, cs)

/-- The moment that a text names. -/
def read? (text : String) : Option Timestamp := do
  let (date, cs) ← date? text.toList
  let cs ← separator? cs
  let (hour, cs) ← number? cs
  let cs ← after? ':' cs
  let (minute, cs) ← number? cs
  let cs ← after? ':' cs
  let (second, cs) ← number? cs
  let (nano, cs) ← nano? cs
  let (ahead, cs) ← offset? (skip cs)
  if hour < 24 ∧ minute < 60 ∧ second ≤ 60 ∧ (skip cs).isEmpty then
    let t := ofLocal ⟨date, hour, minute, second, nano⟩ ahead
    if Date.inRange t.date.year then some t else none
  else none

/-! ## 4. Printing -/

/-- A number with zeros in front, so that it has at least `width` digits. -/
def padded (width n : Nat) : List Char :=
  let ds := Nat.toDigits 10 n
  List.replicate (width - ds.length) '0' ++ ds

/-- A year: four digits, and a sign where four digits do not do. -/
def yearText (year : Int) : List Char :=
  if 0 ≤ year ∧ year ≤ 9999 then padded 4 year.natAbs
  else (if year < 0 then '-' else '+') :: padded 4 year.natAbs

/-- The digits after the second, with the point. -/
def nanoText (nano : Nat) : List Char :=
  if nano = 0 then []
  else if nano % 1000000 = 0 then '.' :: padded 3 (nano / 1000000)
  else if nano % 1000 = 0 then '.' :: padded 6 (nano / 1000)
  else '.' :: padded 9 nano

/-- The text of a moment. -/
def text (t : Timestamp) : String :=
  String.ofList
    (yearText t.date.year ++ '-' :: padded 2 t.date.month ++ '-' :: padded 2 t.date.day
      ++ 'T' :: padded 2 t.hour ++ ':' :: padded 2 t.minute ++ ':' :: padded 2 t.second
      ++ nanoText t.nano ++ ['Z'])

end Timestamp

end Gatehouse.Audit
