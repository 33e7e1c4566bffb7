import OrderDesk.Binary64
import OrderDesk.Toml.Text
import OrderDesk.Timestamp

/-
  This file defines the values of TOML and how they are
  read.

  Of a date or a time it is only kept that it is one. A
  number with a point or an exponent is the double nearest
  to it; infinities and undefined numbers are kept as
  numbers that are not finite.

  Key definitions include:
    * `Toml.Value`
    * `Toml.integer`
    * `Toml.real`
    * `Toml.moment`
-/

namespace OrderDesk

namespace Toml

open Scan

/- A value. A number that is not finite has no double. -/
inductive Value where
  | text (s : String)
  | integer (n : Int)
  | real (x : Option Binary64)
  | boolean (b : Bool)
  | moment
  | array (items : List Value)
  | table (entries : List (String × Value))

------------------------------------------------------------
-- Digits
------------------------------------------------------------

/- A decimal digit. -/
def isDigit
    (c : Char) : Bool :=
  '0' ≤ c && c ≤ '9'

/-
  Take digits of a class. Single underscores may stand
  between them; they are left out.
-/
def digits
    (p : Char → Bool) : Scan (List Char) := do
  let first ← char p
  let others ← many do
    let _ ← maybe (exactly ['_'])
    char p
  return first :: others

/- Take a sign; the answer says whether it is a minus. -/
def sign : Scan Bool :=
  (do exactly ['-']; return true) <|>
  (do exactly ['+']; return false) <|>
  pure false

/- Take digits of which the first is zero only if it is the only one. -/
def wholeDigits : Scan (List Char) :=
  (do exactly ['0']; return ['0']) <|> digits isDigit

------------------------------------------------------------
-- Integers
------------------------------------------------------------

/- The number that digits denote in a base. -/
def numberInBase
    (base : Nat)
    (cs : List Char) : Nat :=
  cs.foldl (fun n c => base * n + (Uuid.hexValue? c).getD 0) 0

/- The integer, if it has 64 bits. -/
def signed64?
    (n : Int) : Option Int :=
  if -(twoTo 63) ≤ n ∧ n < twoTo 63 then some n else none

/- The character is a digit in a base of at most sixteen. -/
def isDigitInBase
    (base : Nat)
    (c : Char) : Bool :=
  (Uuid.hexValue? c).any (· < base)

/- Take an integer in a base that is named by a letter. -/
def basedInteger
    (letter : Char)
    (base : Nat) : Scan Int := do
  exactly ['0', letter]
  let cs ← digits (isDigitInBase base)
  signed64? (numberInBase base cs)

/- Take an integer in base ten. -/
def plainInteger : Scan Int := do
  let negative ← sign
  let cs ← wholeDigits
  let n : Int := numberInBase 10 cs
  signed64? (if negative then -n else n)

/- Take an integer. -/
def integer : Scan Int :=
  basedInteger 'x' 16 <|> basedInteger 'o' 8 <|>
    basedInteger 'b' 2 <|> plainInteger

------------------------------------------------------------
-- Other Numbers
------------------------------------------------------------

/- Take the digits after a point. -/
def fraction : Scan (List Char) := do
  exactly ['.']
  digits isDigit

/- Take an exponent. -/
def exponent : Scan Int := do
  let _ ← char fun c => c = 'e' || c = 'E'
  let negative ← sign
  let cs ← digits isDigit
  let n : Int := numberInBase 10 cs
  return if negative then -n else n

/- Every number with its first digit beyond this place is infinite. -/
def overflowPlace : Int :=
  400

/-
  The double nearest to `n * 10 ^ e`, if it is finite. Far
  beyond the range the power is not worked out.
-/
def nearest?
    (negative : Bool)
    (n : Nat)
    (e : Int) : Option Binary64 :=
  let place := e + (Nat.toDigits 10 n).length
  if n = 0 ∨ place < -overflowPlace then
    some (Binary64.zero negative)
  else if overflowPlace < place then
    none
  else
    Binary64.ofRatio? negative (n * tenTo e.toNat) (tenTo (-e).toNat)

/-
  Take a number with a point or an exponent. Only a negative
  one may be out of range.
-/
def finiteReal : Scan (Option Binary64) := do
  let negative ← sign
  let whole ← wholeDigits
  let (after, e) ←
    (do return ([], ← exponent)) <|>
    (do return (← fraction, (← maybe exponent).getD 0))
  let x :=
    nearest? negative (numberInBase 10 (whole ++ after))
      (e - after.length)
  if x.isNone ∧ ¬ negative then failure else return x

/- Take an infinity or an undefined number. -/
def specialReal : Scan (Option Binary64) := do
  let _ ← sign
  exactly "inf".toList <|> exactly "nan".toList
  return none

/- Take a number that is not an integer. -/
def real : Scan (Option Binary64) :=
  finiteReal <|> specialReal

------------------------------------------------------------
-- Dates And Times
------------------------------------------------------------

/- Take a number of exactly `n` digits within bounds. -/
def fixed
    (n low high : Nat) : Scan Nat :=
  fun cs =>
    let ds := cs.take n
    let value := numberInBase 10 ds
    if ds.length = n ∧ ds.all isDigit ∧ low ≤ value ∧ value ≤ high then
      some (value, cs.drop n)
    else
      none

/- Take a date that exists. -/
def date : Scan Unit := do
  let year ← fixed 4 0 9999
  exactly ['-']
  let month ← fixed 2 1 12
  exactly ['-']
  let day ← fixed 2 1 31
  if (CivilDate.mk year month day).isValid then
    return ()
  else
    failure

/- Take hours and minutes. -/
def clock : Scan Unit := do
  let _ ← fixed 2 0 23
  exactly [':']
  let _ ← fixed 2 0 59

/- Take a time of day. A minute may have a leap second. -/
def timeOfDay : Scan Unit := do
  clock
  exactly [':']
  let _ ← fixed 2 0 60
  let _ ← maybe do
    exactly ['.']
    run1 isDigit

/- Take an offset from universal time. -/
def offset : Scan Unit :=
  (do let _ ← char fun c => c = 'Z' || c = 'z') <|>
  (do
    let _ ← char fun c => c = '+' || c = '-'
    clock)

/- Take a date, a time, or both. -/
def moment : Scan Unit :=
  (do
    date
    let _ ← maybe do
      let _ ← char fun c => c = 'T' || c = 't' || c = ' '
      timeOfDay
      let _ ← maybe offset) <|>
  timeOfDay

------------------------------------------------------------
-- Values
------------------------------------------------------------

/- Take a value that holds no other values. -/
def scalar : Scan Value :=
  .text <$> text <|>
  (fun _ => Value.moment) <$> moment <|>
  .real <$> real <|>
  .integer <$> integer <|>
  (fun _ => Value.boolean true) <$> exactly "true".toList <|>
  (fun _ => Value.boolean false) <$> exactly "false".toList

/- Take an array of what `item` takes. A comma may end it. -/
def arrayOf
    (item : Scan Value) : Scan Value := do
  exactly ['[']
  let items ← maybe do
    let items ← separated (exactly [',']) do
      layout
      let v ← item
      layout
      return v
    let _ ← maybe (exactly [','])
    return items
  layout
  exactly [']']
  return .array (items.getD [])

/- Take an assignment of what `item` takes to a path of keys. -/
def assignment
    (item : Scan Value) : Scan (List String × Value) := do
  let path ← keyPath
  exactly ['=']
  blanks
  let v ← item
  return (path, v)

end Toml

end OrderDesk
