import OrderDesk.Decimal.Arithmetic

/-
  This file defines the written form of decimals: how they
  are printed, the plain notation in which they are read,
  and the scientific notation that is read as well.

  Printing shows every digit that the decimal holds, so
  `1.50` keeps its zero. Reading keeps the scale that is
  written, as far as a decimal has room for it; digits
  behind the last one that fits are rounded half up.

  Key definitions include:
    * `Decimal.toText`
    * `Decimal.ofPlain?`
    * `Decimal.ofScientific?`
    * `Decimal.ofText?`
-/

namespace OrderDesk

------------------------------------------------------------
-- Digits
------------------------------------------------------------

/- The value of an ASCII digit. -/
def digitValue?
    (c : Char) : Option Nat :=
  if '0' ≤ c ∧ c ≤ '9' then some (c.toNat - '0'.toNat) else none

/- The decimal digits of a number, most significant first. -/
def digitChars
    (n : Nat) : List Char :=
  Nat.toDigits 10 n

/- The number that a row of digits denotes; nothing for an empty row. -/
def natOfDigits?
    (cs : List Char) : Option Nat :=
  if cs.isEmpty then
    none
  else
    cs.foldlM (fun n c => (digitValue? c).map (10 * n + ·)) 0

namespace Decimal

------------------------------------------------------------
-- Printing
------------------------------------------------------------

/-
  The digits of a coefficient, padded with zeros on the left
  so that one digit stands before the point.
-/
def paddedDigits
    (m s : Nat) : List Char :=
  let ds := digitChars m
  List.replicate (s + 1 - ds.length) '0' ++ ds

/- A decimal as characters. -/
def toChars
    (a : Decimal) : List Char :=
  let ds := paddedDigits a.coefficient.natAbs a.scale
  let whole := ds.take (ds.length - a.scale)
  let fraction := ds.drop (ds.length - a.scale)
  (if a.coefficient < 0 then ['-'] else []) ++ whole ++
    (if a.scale = 0 then [] else '.' :: fraction)

/- A decimal as text. -/
def toText
    (a : Decimal) : String :=
  String.ofList a.toChars

instance : ToString Decimal :=
  ⟨toText⟩

------------------------------------------------------------
-- Plain Notation
------------------------------------------------------------

/- The digits read so far: their number and how many stand after the point. -/
structure DigitRun where
  digits : Nat
  scale : Nat
deriving DecidableEq

/-
  Round half up on the first digit that does not fit. A
  coefficient that fills up in doing so gives up one digit.
-/
def roundUp?
    (read : DigitRun)
    (next : Nat) : Option DigitRun :=
  if next < 5 then
    some read
  else if read.digits + 1 < twoTo 96 then
    some ⟨read.digits + 1, read.scale⟩
  else if read.scale = 0 then
    none
  else
    some ⟨(read.digits + 1 + 4) / 10, read.scale - 1⟩

/- Characters that may stand among the digits behind the last one kept. -/
def isDigitOrSeparator
    (c : Char) : Bool :=
  (digitValue? c).isSome || c == '_'

/-
  Read digits with at most one point among them. Underscores
  may stand behind the first digit. Before the point a
  coefficient that is too long is refused; after it the
  digits that do not fit are rounded away.
-/
def readDigits?
    (read : DigitRun)
    (point any : Bool) :
    List Char → Option DigitRun
| [] => if any then some read else none
| c :: cs =>
    match digitValue? c with
    | some d =>
        let n := 10 * read.digits + d
        if point ∧ (read.scale = 28 ∨ twoTo 96 ≤ n) then
          if cs.all isDigitOrSeparator then roundUp? read d else none
        else if twoTo 96 ≤ n then
          none
        else
          readDigits?
            ⟨n, if point then read.scale + 1 else read.scale⟩
            point true cs
    | none =>
        if c = '.' ∧ ¬ point then
          readDigits? read true any cs
        else if c = '_' ∧ any then
          if point ∧ read.scale = 28 then
            if cs.all isDigitOrSeparator then some read else none
          else
            readDigits? read point any cs
        else
          none

/- Read plain notation: an optional sign, then digits. -/
def ofPlainChars?
    (cs : List Char) : Option Decimal :=
  let signed :=
    match cs with
    | '-' :: rest => (true, rest)
    | '+' :: rest => (false, rest)
    | _ => (false, cs)
  (readDigits? ⟨0, 0⟩ false false signed.2).bind fun read =>
    ofParts?
      (if signed.1 then -(read.digits : Int) else read.digits)
      read.scale

/- Read a text in plain notation. -/
def ofPlain?
    (s : String) : Option Decimal :=
  ofPlainChars? s.toList

------------------------------------------------------------
-- Scientific Notation
------------------------------------------------------------

/- An exponent without its minus sign; a plus sign is allowed. -/
def exponentOfChars?
    (cs : List Char) : Option Nat :=
  match cs with
  | '+' :: rest => natOfDigits? rest
  | _ => natOfDigits? cs

/- Move the point of `a` by `e` places to the left. -/
def shiftLeft?
    (a : Decimal)
    (e : Nat) : Option Decimal :=
  ofParts? a.coefficient (a.scale + e)

/-
  Move the point of `a` by `e` places to the right. A shift
  past the last digit appends zeros; the result is then
  written as short as possible.
-/
def shiftRight?
    (a : Decimal)
    (e : Nat) : Option Decimal :=
  if e ≤ a.scale then
    ofParts? a.coefficient (a.scale - e)
  else
    (fit? (a.coefficient * tenTo e) a.scale).map normalize

/-
  Read a coefficient in plain notation with an exponent of
  at most 28 places either way.
-/
def ofScientificChars?
    (cs : List Char) : Option Decimal :=
  let isMark := fun c : Char => c = 'e' ∨ c = 'E'
  match cs.dropWhile (fun c => ¬ isMark c) with
  | [] => none
  | _ :: exponent =>
      (ofPlainChars? (cs.takeWhile (fun c => ¬ isMark c))).bind fun a =>
        match exponent with
        | '-' :: rest =>
            (exponentOfChars? rest).bind fun e =>
              if 28 < e then none else shiftLeft? a e
        | _ =>
            (exponentOfChars? exponent).bind fun e =>
              if 28 < e then none else shiftRight? a e

/- Read a text in scientific notation. -/
def ofScientific?
    (s : String) : Option Decimal :=
  ofScientificChars? s.toList

/- Read a text in plain notation or else in scientific notation. -/
def ofText?
    (s : String) : Option Decimal :=
  (ofPlain? s).orElse fun _ => ofScientific? s

end Decimal

end OrderDesk
