import OrderDesk.Decimal.Text

/-
  This file defines double precision numbers as exact pairs
  of integers, their rounding, and the fewest decimal digits
  that tell a double from its neighbours.

  Key definitions include:
    * `Binary64`
    * `Binary64.ofRatio?`
    * `Binary64.mul?`
    * `Binary64.div?`
    * `Binary64.Shortest`
    * `Binary64.shortest`
    * `Decimal.toBinary64?`
    * `Decimal.ofBinary64?`
-/

namespace OrderDesk

------------------------------------------------------------
-- Doubles
------------------------------------------------------------

/-
  The finite double `± significand * 2 ^ exponent`. The
  significand has 53 bits, or fewer at the least exponent,
  which is -1074.
-/
structure Binary64 where
  negative : Bool
  significand : Nat
  exponent : Int
deriving DecidableEq

namespace Binary64

/- The double zero with a sign. -/
def zero
    (negative : Bool) : Binary64 :=
  ⟨negative, 0, -1074⟩

/- The magnitude of a double as a quotient: its numerator. -/
def numerator
    (x : Binary64) : Nat :=
  x.significand * twoTo x.exponent.toNat

/- The magnitude of a double as a quotient: its denominator. -/
def denominator
    (x : Binary64) : Nat :=
  twoTo (-x.exponent).toNat

/- The quotient `n / d` is at least `2 ^ e`. -/
def reachesPower
    (n d : Nat)
    (e : Int) : Bool :=
  decide (d * twoTo e.toNat ≤ n * twoTo (-e).toNat)

/-
  The exponent at which the quotient `n / d` has a
  significand of 53 bits, but not less than -1074.
-/
def exponentOf
    (n d : Nat) : Int :=
  let guess : Int := (Nat.log2 n : Int) - Nat.log2 d
  let top := if reachesPower n d guess then guess else guess - 1
  max (-1074) (top - 52)

/-
  The double nearest to `n / d`, a tie going to the even
  significand; nothing when it is too large for a double.
-/
def ofRatio?
    (negative : Bool)
    (n d : Nat) : Option Binary64 :=
  if n = 0 then
    some (zero negative)
  else
    let e := exponentOf n d
    let q := roundHalfEven (n * twoTo (-e).toNat) (d * twoTo e.toNat)
    let x : Binary64 :=
      if q = twoTo 53 then ⟨negative, twoTo 52, e + 1⟩
      else ⟨negative, q, e⟩
    if 971 < x.exponent then none else some x

/- The product of two doubles, rounded. -/
def mul?
    (x y : Binary64) : Option Binary64 :=
  ofRatio? (x.negative != y.negative)
    (x.numerator * y.numerator) (x.denominator * y.denominator)

/- The quotient of two doubles, rounded; the divisor is not zero. -/
def div?
    (x y : Binary64) : Option Binary64 :=
  ofRatio? (x.negative != y.negative)
    (x.numerator * y.denominator) (x.denominator * y.numerator)

/- The double has magnitude zero. -/
def isZero
    (x : Binary64) : Bool :=
  x.significand == 0

/- The double of the same magnitude with the given sign. -/
def withSign
    (x : Binary64)
    (negative : Bool) : Binary64 :=
  { x with negative := negative }

------------------------------------------------------------
-- Shortest Digits
------------------------------------------------------------

/-
  Decimal digits without trailing zeros; the first of them
  stands for multiples of `10 ^ leading`.
-/
structure Shortest where
  digits : List Char
  leading : Int
deriving DecidableEq

/- The exponent of the leading decimal digit of `n / d`. -/
def decimalExponentOf
    (n d : Nat) : Int :=
  let guess : Int :=
    ((digitChars n).length : Int) - (digitChars d).length
  if d * tenTo guess.toNat ≤ n * tenTo (-guess).toNat then
    guess
  else
    guess - 1

/-
  The multiple of `10 ^ unit` nearest to the double among
  its two neighbours on that grid, if one of them reads back
  as the double. A tie goes to the even multiple.
-/
def onGrid?
    (x : Binary64)
    (unit : Int) : Option Nat :=
  let n := x.numerator * tenTo (-unit).toNat
  let d := x.denominator * tenTo unit.toNat
  let below := n / d
  let readsBack := fun c : Nat =>
    ofRatio? x.negative (c * tenTo unit.toNat) (tenTo (-unit).toNat)
      = some x
  let nearest := roundHalfEven n d
  if readsBack nearest then
    some nearest
  else if readsBack below then
    some below
  else if readsBack (below + 1) then
    some (below + 1)
  else
    none

/- Drop zeros from the end of a row of digits. -/
def dropTrailingZeros
    (cs : List Char) : List Char :=
  (cs.reverse.dropWhile (· = '0')).reverse

/-
  The fewest digits that read back as the double, and of
  those the nearest to it. Seventeen digits always do.
-/
def shortest
    (x : Binary64) : Shortest :=
  if x.isZero then
    ⟨['0'], 0⟩
  else
    let top := decimalExponentOf x.numerator x.denominator
    let grids : List Int :=
      (List.range 17).map fun (k : Nat) => top - (k : Int)
    let found := grids.findSome? fun unit =>
      (onGrid? x unit).map fun c => (c, unit)
    let best := found.getD (0, 0)
    let ds := digitChars best.1
    ⟨dropTrailingZeros ds, best.2 + (ds.length : Int) - 1⟩

/-
  Digits in positional notation, split at the point. The
  whole part has at least one digit; the fraction is empty
  when the number is an integer.
-/
def Shortest.positional
    (t : Shortest) : List Char × List Char :=
  if t.leading < 0 then
    (['0'], List.replicate (-t.leading - 1).toNat '0' ++ t.digits)
  else
    let n := t.leading.toNat + 1
    (t.digits.take n ++ List.replicate (n - t.digits.length) '0',
      t.digits.drop n)

end Binary64

------------------------------------------------------------
-- Decimals And Doubles
------------------------------------------------------------

namespace Decimal

/- The double nearest to a decimal. -/
def toBinary64?
    (a : Decimal) : Option Binary64 :=
  Binary64.ofRatio? (decide (a.coefficient < 0))
    a.coefficient.natAbs (tenTo a.scale)

/-
  The decimal whose plain notation is the shortest text of a
  double, if there is one.
-/
def ofBinary64?
    (x : Binary64) : Option Decimal :=
  let (whole, fraction) := x.shortest.positional
  ofPlainChars?
    ((if x.negative then ['-'] else []) ++ whole ++
      (if fraction.isEmpty then [] else '.' :: fraction))

end Decimal

end OrderDesk
