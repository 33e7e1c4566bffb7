import OrderDesk.Decimal.Text
import OrderDesk.Text.Blank

/-
  This file defines points in time and their written form, a
  date and a time of day with an offset from universal time.

  Time is counted in seconds from the start of 1970 and
  nanoseconds. A leap second belongs to the second before
  it: its nanoseconds go on above a thousand million.

  Printing is in universal time with as many digits after
  the seconds as the nanoseconds need, in groups of three.
  Reading accepts any offset, short fields and white space
  between the parts.

  Key definitions include:
    * `CivilDate`
    * `CivilDate.toDays`
    * `CivilDate.ofDays`
    * `Timestamp`
    * `Timestamp.toText`
    * `Timestamp.ofText?`
-/

namespace OrderDesk

------------------------------------------------------------
-- Calendar
------------------------------------------------------------

/- A date of the Gregorian calendar, extended to all years. -/
structure CivilDate where
  year : Int
  month : Nat
  day : Nat
deriving DecidableEq

namespace CivilDate

/- The year has a twenty-ninth of February. -/
def isLeapYear
    (year : Int) : Bool :=
  year % 4 = 0 && (year % 100 ≠ 0 || year % 400 = 0)

/- The number of days in a month. -/
def daysInMonth
    (year : Int)
    (month : Nat) : Nat :=
  if month = 2 then
    if isLeapYear year then 29 else 28
  else if month = 4 ∨ month = 6 ∨ month = 9 ∨ month = 11 then
    30
  else
    31

/- The date exists. -/
def isValid
    (date : CivilDate) : Bool :=
  decide (1 ≤ date.month ∧ date.month ≤ 12) &&
    decide (1 ≤ date.day) &&
    decide (date.day ≤ daysInMonth date.year date.month)

/-
  Days from the first of January 1970. Years are counted
  from March, so that the leap day is the last of a year,
  and in eras of four hundred years.
-/
def toDays
    (date : CivilDate) : Int :=
  let y := if date.month ≤ 2 then date.year - 1 else date.year
  let era := y / 400
  let yearOfEra := y - era * 400
  let monthFromMarch : Int := ((date.month : Int) + 9) % 12
  let dayOfYear := (153 * monthFromMarch + 2) / 5 + date.day - 1
  let dayOfEra :=
    yearOfEra * 365 + yearOfEra / 4 - yearOfEra / 100 + dayOfYear
  era * 146097 + dayOfEra - 719468

/- The date that lies a number of days after the first of January 1970. -/
def ofDays
    (days : Int) : CivilDate :=
  let z := days + 719468
  let era := z / 146097
  let dayOfEra := z - era * 146097
  let yearOfEra :=
    (dayOfEra - dayOfEra / 1460 + dayOfEra / 36524 -
      dayOfEra / 146096) / 365
  let dayOfYear :=
    dayOfEra - (365 * yearOfEra + yearOfEra / 4 - yearOfEra / 100)
  let monthFromMarch := (5 * dayOfYear + 2) / 153
  let day := dayOfYear - (153 * monthFromMarch + 2) / 5 + 1
  let month := (monthFromMarch + 2) % 12 + 1
  let y := yearOfEra + era * 400
  ⟨if month ≤ 2 then y + 1 else y, month.toNat, day.toNat⟩

end CivilDate

------------------------------------------------------------
-- Points In Time
------------------------------------------------------------

/-
  A point in time: seconds from the start of 1970, and
  nanoseconds, which reach two thousand million in a leap
  second.
-/
structure Timestamp where
  seconds : Int
  nanos : Nat
deriving DecidableEq

namespace Timestamp

/- The start of 1970. -/
def epoch : Timestamp :=
  ⟨0, 0⟩

instance : Inhabited Timestamp :=
  ⟨epoch⟩

/- The first second that can be written, in the year -262143. -/
def firstSecond : Int :=
  (CivilDate.toDays ⟨-262143, 1, 1⟩) * 86400

/- The last second that can be written, in the year 262142. -/
def lastSecond : Int :=
  (CivilDate.toDays ⟨262142, 12, 31⟩) * 86400 + 86399

/-
  The point in time with the given parts, if it exists. Only
  the last second of a minute can be a leap second.
-/
def ofParts?
    (seconds : Int)
    (nanos : Nat) : Option Timestamp :=
  if firstSecond ≤ seconds ∧ seconds ≤ lastSecond ∧
      (nanos < tenTo 9 ∨ (nanos < 2 * tenTo 9 ∧ seconds % 60 = 59)) then
    some ⟨seconds, nanos⟩
  else
    none

------------------------------------------------------------
-- Printing
------------------------------------------------------------

/- A number with zeros in front up to a given length. -/
def padded
    (length n : Nat) : List Char :=
  let ds := digitChars n
  List.replicate (length - ds.length) '0' ++ ds

/- A year; one that does not have four digits gets a sign. -/
def yearChars
    (year : Int) : List Char :=
  if year < 0 then '-' :: padded 4 year.natAbs
  else if 9999 < year then '+' :: padded 4 year.natAbs
  else padded 4 year.natAbs

/- The digits behind the seconds, in groups of three. -/
def fractionChars
    (nanos : Nat) : List Char :=
  if nanos = 0 then []
  else if nanos % tenTo 6 = 0 then '.' :: padded 3 (nanos / tenTo 6)
  else if nanos % tenTo 3 = 0 then '.' :: padded 6 (nanos / tenTo 3)
  else '.' :: padded 9 nanos

/- A point in time in universal time, as characters. -/
def toChars
    (t : Timestamp) : List Char :=
  let date := CivilDate.ofDays (t.seconds / 86400)
  let ofDay := (t.seconds % 86400).toNat
  let leap := tenTo 9 ≤ t.nanos
  let second := if leap then ofDay % 60 + 1 else ofDay % 60
  let nanos := if leap then t.nanos - tenTo 9 else t.nanos
  yearChars date.year ++ '-' :: padded 2 date.month ++
    '-' :: padded 2 date.day ++
    'T' :: padded 2 (ofDay / 3600) ++
    ':' :: padded 2 (ofDay / 60 % 60) ++
    ':' :: padded 2 second ++ fractionChars nanos ++ ['Z']

/- A point in time in universal time. -/
def toText
    (t : Timestamp) : String :=
  String.ofList t.toChars

------------------------------------------------------------
-- Reading
------------------------------------------------------------

/- The character is an ASCII digit. -/
def isDigit
    (c : Char) : Bool :=
  (digitValue? c).isSome

/- A number of at most `most` digits, behind white space. -/
def readNumber?
    (most : Nat)
    (cs : List Char) : Option (Nat × List Char) :=
  let cs := skipBlanks cs
  let ds := (cs.take most).takeWhile isDigit
  (natOfDigits? ds).map fun n => (n, cs.drop ds.length)

/-
  A year behind white space: four digits at most, or any
  number of digits after a sign.
-/
def readYear?
    (cs : List Char) : Option (Int × List Char) :=
  match skipBlanks cs with
  | '-' :: rest =>
      let ds := rest.takeWhile isDigit
      (natOfDigits? ds).map fun n => (-(n : Int), rest.drop ds.length)
  | '+' :: rest =>
      let ds := rest.takeWhile isDigit
      (natOfDigits? ds).map fun n => ((n : Int), rest.drop ds.length)
  | rest => (readNumber? 4 rest).map fun (n, after) => ((n : Int), after)

/- The given mark behind white space. -/
def readMark?
    (mark : Char)
    (cs : List Char) : Option (List Char) :=
  match skipBlanks cs with
  | c :: rest => if c = mark then some rest else none
  | [] => none

/- A date: year, month and day with hyphens between them. -/
def readDate?
    (cs : List Char) : Option (CivilDate × List Char) := do
  let (year, cs) ← readYear? cs
  let cs ← readMark? '-' cs
  let (month, cs) ← readNumber? 2 cs
  let cs ← readMark? '-' cs
  let (day, cs) ← readNumber? 2 cs
  let date : CivilDate := ⟨year, month, day⟩
  if date.isValid then
    return (date, cs)
  else
    none

/-
  Digits behind the seconds, of which nine count, as
  nanoseconds.
-/
def readFraction?
    (cs : List Char) : Option (Nat × List Char) :=
  match cs with
  | '.' :: rest =>
      let ds := rest.takeWhile isDigit
      let counted := ds.take 9
      (natOfDigits? counted).map fun n =>
        (n * tenTo (9 - counted.length), rest.dropWhile isDigit)
  | _ => some (0, cs)

/-
  A time of day: hours, minutes and seconds with colons
  between them, as seconds and nanoseconds. The second 60 is
  a leap second.
-/
def readTime?
    (cs : List Char) : Option ((Nat × Nat) × List Char) := do
  let (hour, cs) ← readNumber? 2 cs
  let cs ← readMark? ':' cs
  let (minute, cs) ← readNumber? 2 cs
  let cs ← readMark? ':' cs
  let (second, cs) ← readNumber? 2 cs
  let (nanos, cs) ← readFraction? cs
  if 23 < hour ∨ 59 < minute ∨ 60 < second then
    none
  else
    let ofDay := hour * 3600 + minute * 60
    if second = 60 then
      return ((ofDay + 59, nanos + tenTo 9), cs)
    else
      return ((ofDay + second, nanos), cs)

/- Two digits at the front of a text. -/
def readTwo?
    (cs : List Char) : Option (Nat × List Char) :=
  match cs with
  | a :: b :: rest =>
      (digitValue? a).bind fun x =>
        (digitValue? b).map fun y => (10 * x + y, rest)
  | _ => none

/-
  The hours and minutes of an offset, in seconds. Colons and
  white space may stand between them; an offset is less than
  a day.
-/
def readOffset?
    (cs : List Char) : Option (Nat × List Char) := do
  let (hours, cs) ← readTwo? cs
  let (minutes, cs) ←
    readTwo? (cs.dropWhile fun c => c = ':' || isBlank c)
  if 59 < minutes ∨ 23 < hours then
    none
  else
    return (hours * 3600 + minutes * 60, cs)

/-
  The distance from universal time, in seconds: none for
  `Z` or `UTC` in either case, else a signed offset.
-/
def readZone?
    (cs : List Char) : Option (Int × List Char) :=
  if (cs.take 3).map Char.toLower = ['u', 't', 'c'] then
    some (0, cs.drop 3)
  else
    match cs with
    | [] => none
    | c :: rest =>
        if c = 'Z' ∨ c = 'z' then
          some (0, rest)
        else if c = '+' then
          (readOffset? rest).map fun (n, after) => ((n : Int), after)
        else if c = '-' ∨ c.toNat = 0x2212 then
          (readOffset? rest).map fun (n, after) => (-(n : Int), after)
        else
          none

/- What separates the date from the time. -/
def readSeparator?
    (cs : List Char) : Option (List Char) :=
  match cs with
  | c :: rest =>
      if c = 'T' ∨ c = 't' ∨ c = ' ' then some rest else none
  | [] => none

/- The point in time that a text denotes. -/
def ofChars?
    (cs : List Char) : Option Timestamp := do
  let (date, cs) ← readDate? cs
  let cs ← readSeparator? cs
  let ((ofDay, nanos), cs) ← readTime? cs
  let (offset, cs) ← readZone? (skipBlanks cs)
  if (skipBlanks cs).isEmpty then
    let local_ := date.toDays * 86400 + ofDay
    if local_ < firstSecond ∨ lastSecond < local_ then
      none
    else
      let utc := local_ - offset
      if utc < firstSecond ∨ lastSecond < utc then
        none
      else
        return ⟨utc, nanos⟩
  else
    none

/- The point in time that a text denotes. -/
def ofText?
    (s : String) : Option Timestamp :=
  ofChars? s.toList

end Timestamp

end OrderDesk
