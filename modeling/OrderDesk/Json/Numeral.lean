import OrderDesk.Binary64

/-
  This file defines numerals as they are written in JSON,
  and the numbers that they are taken for.

  An integer of 64 bits is taken exactly. Any other numeral
  is taken for a double, in two steps that each round: the
  leading digits are collected as long as they fit 64 bits,
  and the result is multiplied or divided by a power of ten.

  Key definitions include:
    * `Numeral`
    * `Numeral.toChars`
    * `Numeral.read?`
    * `Number`
    * `Numeral.number?`
    * `Numeral.ofBinary64`
-/

namespace OrderDesk

------------------------------------------------------------
-- Written Numerals
------------------------------------------------------------

/- How the sign of an exponent is written. -/
inductive ExponentSign where
  | unsigned
  | plus
  | minus
deriving DecidableEq

namespace ExponentSign

/- The sign as characters. -/
def toChars :
    ExponentSign → List Char
| unsigned => []
| plus => ['+']
| minus => ['-']

end ExponentSign

/-
  A numeral: digits before the point, digits after it (none
  when there is no point) and an exponent.
-/
structure Numeral where
  negative : Bool
  whole : List Char
  fraction : List Char
  exponent : Option (ExponentSign × List Char)
deriving DecidableEq

namespace Numeral

/- The numeral of a natural number. -/
def ofNat
    (n : Nat) : Numeral :=
  ⟨false, digitChars n, [], none⟩

/- The characters of a numeral. -/
def toChars
    (t : Numeral) : List Char :=
  (if t.negative then ['-'] else []) ++ t.whole ++
    (if t.fraction.isEmpty then [] else '.' :: t.fraction) ++
    (match t.exponent with
     | none => []
     | some (sign, digits) => 'e' :: (sign.toChars ++ digits))

/- The character is an ASCII digit. -/
def isDigit
    (c : Char) : Bool :=
  (digitValue? c).isSome

/- Digits before the point: a single zero, or no zero in front. -/
def readWhole?
    (cs : List Char) : Option (List Char × List Char) :=
  match cs.takeWhile isDigit with
  | [] => none
  | ['0'] => some (['0'], cs.dropWhile isDigit)
  | '0' :: _ => none
  | ds => some (ds, cs.dropWhile isDigit)

/- A point with at least one digit after it, if there is a point. -/
def readFraction?
    (cs : List Char) : Option (List Char × List Char) :=
  match cs with
  | '.' :: rest =>
      if (rest.takeWhile isDigit).isEmpty then
        none
      else
        some (rest.takeWhile isDigit, rest.dropWhile isDigit)
  | _ => some ([], cs)

/- The digits of an exponent, of which there is at least one. -/
def readExponentDigits?
    (sign : ExponentSign)
    (cs : List Char) :
    Option (Option (ExponentSign × List Char) × List Char) :=
  if (cs.takeWhile isDigit).isEmpty then
    none
  else
    some (some (sign, cs.takeWhile isDigit), cs.dropWhile isDigit)

/- An exponent, if there is one. -/
def readExponent?
    (cs : List Char) :
    Option (Option (ExponentSign × List Char) × List Char) :=
  match cs with
  | c :: rest =>
      if c = 'e' ∨ c = 'E' then
        match rest with
        | '+' :: ds => readExponentDigits? .plus ds
        | '-' :: ds => readExponentDigits? .minus ds
        | ds => readExponentDigits? .unsigned ds
      else
        some (none, cs)
  | [] => some (none, [])

/- Read a numeral without its minus sign. -/
def readUnsigned?
    (negative : Bool)
    (cs : List Char) : Option (Numeral × List Char) :=
  (readWhole? cs).bind fun (whole, afterWhole) =>
    (readFraction? afterWhole).bind fun (fraction, afterFraction) =>
      (readExponent? afterFraction).map fun (exponent, rest) =>
        (⟨negative, whole, fraction, exponent⟩, rest)

/- Read a numeral from the front of a text. -/
def read?
    (cs : List Char) : Option (Numeral × List Char) :=
  match cs with
  | '-' :: rest => readUnsigned? true rest
  | _ => readUnsigned? false cs

------------------------------------------------------------
-- Numbers
------------------------------------------------------------

end Numeral

/- What a numeral is taken for. -/
inductive Number where
  | natural (n : Nat)
  | negative (n : Int)
  | real (x : Binary64)
deriving DecidableEq

namespace Numeral

/-
  The leading digits of a row, as long as the number stays
  below `2 ^ 64`, and the digits left over.
-/
def collect
    (n : Nat) :
    List Char → Nat × List Char
| [] => (n, [])
| c :: cs =>
    let next := 10 * n + (digitValue? c).getD 0
    if next < twoTo 64 then collect next cs else (n, c :: cs)

/- A power of ten as a double. -/
def powerOfTen
    (e : Nat) : Binary64 :=
  (Binary64.ofRatio? false (tenTo e) 1).getD (Binary64.zero false)

/-
  Divide by `10 ^ e`, by at most `10 ^ 308` at a time. Zero
  stays zero.
-/
def divideByPower
    (x : Binary64)
    (e : Nat) : Binary64 :=
  if e ≤ 308 then
    (x.div? (powerOfTen e)).getD x
  else if x.isZero then
    x
  else
    divideByPower ((x.div? (powerOfTen 308)).getD x) (e - 308)
termination_by e

/- The double for `n * 10 ^ e`; nothing when it is too large. -/
def scaled?
    (n : Nat)
    (e : Int) : Option Binary64 :=
  (Binary64.ofRatio? false n 1).bind fun x =>
    if e < 0 then
      some (divideByPower x (-e).toNat)
    else if e ≤ 308 then
      x.mul? (powerOfTen e.toNat)
    else if n = 0 then
      some x
    else
      none

/- The exponent that is written, as a number. -/
def writtenExponent
    (t : Numeral) : Int :=
  match t.exponent with
  | none => 0
  | some (sign, digits) =>
      let n : Int := (natOfDigits? digits).getD 0
      if sign = .minus then -n else n

/-
  The double that a numeral is taken for. Digits that do not
  fit are dropped; those before the point count in the
  exponent.
-/
def real?
    (t : Numeral) : Option Binary64 :=
  let (n, dropped) := collect 0 t.whole
  let (m, unread) := collect n t.fraction
  let taken := t.fraction.length - unread.length
  (scaled? m (t.writtenExponent + dropped.length - taken)).map
    (·.withSign t.negative)

/-
  The number that a numeral is taken for; nothing when it is
  out of range.
-/
def number?
    (t : Numeral) : Option Number :=
  let n := (natOfDigits? t.whole).getD 0
  if t.fraction.isEmpty ∧ t.exponent.isNone then
    if ¬ t.negative ∧ n < twoTo 64 then
      some (.natural n)
    else if t.negative ∧ 0 < n ∧ n ≤ twoTo 63 then
      some (.negative (-(n : Int)))
    else
      t.real?.map .real
  else
    t.real?.map .real

------------------------------------------------------------
-- Numerals Of Doubles
------------------------------------------------------------

/-
  The numeral of a double: its shortest digits, in
  positional notation with at least one digit after the
  point when the leading digit stands between the fifth
  place after the point and the sixteenth place before it,
  else with an exponent.
-/
def ofBinary64
    (x : Binary64) : Numeral :=
  let t := x.shortest
  if t.leading < -5 ∨ 16 ≤ t.leading then
    ⟨x.negative, t.digits.take 1, t.digits.drop 1,
      some
        (if t.leading < 0 then .minus else .plus,
          digitChars t.leading.natAbs)⟩
  else
    let (whole, fraction) := t.positional
    ⟨x.negative, whole,
      if fraction.isEmpty then ['0'] else fraction, none⟩

end Numeral

end OrderDesk
