import OrderDesk.Decimal.Basic

/-
  This file defines checked arithmetic on decimals. Every
  operation yields a decimal or nothing: nothing means that
  the exact result has no decimal near it.

  Sums and products are the exact result brought into range
  by `Decimal.fit?`. A quotient is developed digit by digit:
  at most nine digits are appended at a time, until the
  remainder is zero, the scale is full or the coefficient is
  full.

  Key definitions include:
    * `Decimal.mul?`
    * `Decimal.add?`
    * `Decimal.sub?`
    * `Decimal.div?`
    * `Decimal.normalize`
-/

namespace OrderDesk

namespace Decimal

------------------------------------------------------------
-- Products And Sums
------------------------------------------------------------

/-
  The product. A product of two short coefficients that has
  more than 47 digits after the point is taken to be zero.
-/
def mul?
    (a b : Decimal) : Option Decimal :=
  if a.IsZero ∨ b.IsZero then
    some 0
  else if a.coefficient.natAbs < twoTo 32 ∧
      b.coefficient.natAbs < twoTo 32 ∧
      47 < a.scale + b.scale then
    some 0
  else
    fit? (a.coefficient * b.coefficient) (a.scale + b.scale)

/-
  The sum. A zero operand leaves the other one as it is, its
  scale included.
-/
def add?
    (a b : Decimal) : Option Decimal :=
  if a.IsZero then
    some b
  else if b.IsZero then
    some a
  else
    let s := max a.scale b.scale
    fit?
      (a.coefficient * tenTo (s - a.scale) +
        b.coefficient * tenTo (s - b.scale))
      s

/- The difference. -/
def sub?
    (a b : Decimal) : Option Decimal :=
  add? a b.neg

------------------------------------------------------------
-- Quotients
------------------------------------------------------------

/-
  A quotient under development: the digits found so far, the
  scale that they stand at, and whether a remainder was ever
  left, in which case appended zeros are taken back at the
  end.
-/
structure Quotient where
  digits : Nat
  scale : Int
  inexact : Bool
deriving DecidableEq

namespace Quotient

/-
  Give up one digit of a coefficient that has grown too
  long. `sticky` says that something was already cut off
  behind it.
-/
def dropDigit?
    (digits : Nat)
    (scale : Int)
    (sticky inexact : Bool) : Option Quotient :=
  let q := digits / 10
  let d := digits % 10
  if scale < 1 then
    none
  else if 5 < d ∨ (d = 5 ∧ (sticky ∨ q % 2 = 1)) then
    some ⟨q + 1, scale - 1, inexact⟩
  else
    some ⟨q, scale - 1, inexact⟩

/-
  The most digits, up to `limit`, that can be appended to
  the coefficient `q`.
-/
def room
    (q : Nat) :
    Nat → Nat
| 0 => 0
| limit + 1 =>
    if q * tenTo (limit + 1) < twoTo 96 then
      limit + 1
    else
      room q limit

/- No more digits than asked for are appended. -/
theorem room_le
    (q limit : Nat) :
    room q limit ≤ limit := by
  induction limit with
  | zero => simp [room]
  | succ limit ih =>
      unfold room
      split
      · exact Nat.le_refl _
      · omega

/-
  How many digits the next step appends. An exact quotient
  is only brought back to the point.
-/
def appended
    (q r : Nat)
    (s : Int) : Nat :=
  if r = 0 then
    min 9 (-s).toNat
  else
    room q (min 9 (28 - s).toNat)

/- A step never runs past the largest scale. -/
theorem appended_le
    (q r : Nat)
    (s : Int) :
    appended q r s ≤ (28 - s).toNat := by
  unfold appended
  split
  · omega
  · have := room_le q (min 9 (28 - s).toNat)
    omega

/- The last digit of a quotient, rounded on the remainder. -/
def roundOff?
    (divisor q r : Nat)
    (s : Int) : Option Quotient :=
  if 2 * r < divisor ∨ (2 * r = divisor ∧ q % 2 = 0) then
    some ⟨q, s, true⟩
  else if q + 1 = twoTo 96 then
    dropDigit? (q + 1) s true true
  else
    some ⟨q + 1, s, true⟩

/-
  Develop a quotient from the digits `q` at scale `s` with
  remainder `r`. An exact quotient stops at its last digit
  before the point; a quotient whose scale is negative is
  first brought back to the point.
-/
def develop?
    (divisor q r : Nat)
    (s : Int)
    (inexact : Bool) : Option Quotient :=
  if r = 0 ∧ 0 ≤ s then
    some ⟨q, s, inexact⟩
  else
    let p := appended q r s
    if r ≠ 0 ∧ p < 9 ∧ s + p < 0 then
      none
    else if _hZero : p = 0 then
      roundOff? divisor q r s
    else if twoTo 96 ≤ q * tenTo p then
      none
    else
      let q' := q * tenTo p + r * tenTo p / divisor
      let r' := r * tenTo p % divisor
      if twoTo 96 ≤ q' then
        dropDigit? q' (s + p) (decide (r' ≠ 0))
          (inexact || decide (r ≠ 0))
      else
        develop? divisor q' r' (s + p)
          (inexact || decide (r ≠ 0))
termination_by (28 - s).toNat
decreasing_by
  have hLe := appended_le q r s
  have hPos : appended q r s ≠ 0 := _hZero
  show (28 - (s + (appended q r s : Int))).toNat < (28 - s).toNat
  omega

/-
  Take back one group of `n` zeros, if the scale allows it
  and the coefficient ends in them.
-/
def takeBack
    (n : Nat)
    (t : Quotient) : Quotient :=
  if (n : Int) ≤ t.scale ∧ t.digits % twoTo n = 0 ∧
      t.digits % tenTo n = 0 then
    { t with digits := t.digits / tenTo n, scale := t.scale - n }
  else
    t

/-
  Take back groups of eight zeros as long as there are any
  and the coefficient is a multiple of `2 ^ 32`.
-/
def takeBackEights
    (t : Quotient) : Quotient :=
  if _h : t.digits % twoTo 32 = 0 ∧ 8 ≤ t.scale ∧
      t.digits % tenTo 8 = 0 then
    takeBackEights
      { t with digits := t.digits / tenTo 8, scale := t.scale - 8 }
  else
    t
termination_by t.scale.toNat
decreasing_by
  show (t.scale - 8).toNat < t.scale.toNat
  omega

/-
  Appended zeros are taken back in groups of eight, then
  once each in groups of four, two and one, so that not all
  of them need to go. An exact quotient keeps its zeros.
-/
def trim
    (t : Quotient) : Quotient :=
  if t.inexact then
    ((takeBackEights t).takeBack 4 |>.takeBack 2).takeBack 1
  else
    t

end Quotient

/- The quotient; nothing for a zero divisor. -/
def div?
    (a b : Decimal) : Option Decimal :=
  if b.IsZero then
    none
  else if a.IsZero then
    some 0
  else
    let m := a.coefficient.natAbs
    let d := b.coefficient.natAbs
    let s := (a.scale : Int) - b.scale
    (Quotient.develop? d (m / d) (m % d) s false).bind fun t =>
      let u := t.trim
      ofParts? (a.coefficient.sign * b.coefficient.sign * u.digits)
        u.scale

------------------------------------------------------------
-- Trailing Zeros
------------------------------------------------------------

/- Drop trailing zeros from a coefficient with `s` digits after the point. -/
def stripZeros
    (c : Int) :
    Nat → Int × Nat
| 0 => (c, 0)
| s + 1 =>
    if c % 10 = 0 then stripZeros (c / 10) s else (c, s + 1)

/- The shortest decimal of the same value. -/
def normalize
    (a : Decimal) : Decimal :=
  let t := stripZeros a.coefficient a.scale
  (ofParts? t.1 t.2).getD a

end Decimal

end OrderDesk
