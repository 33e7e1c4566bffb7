import OrderDesk.Power

/-
  This file defines the decimal numbers in which quantities,
  prices and limits are kept, their exact order, and the
  rounding that brings an exact result back into range.

  A decimal is an integer coefficient over a power of ten.
  Two decimals with different scales, such as `1.5` and
  `1.50`, are different decimals of the same value: equality
  is equality of representation, the order is the order of
  the values.

  Key definitions include:
    * `Decimal`
    * `Decimal.neg`
    * `Decimal.fit?`
    * `Decimal.ofInt?`
    * `roundHalfEven`
-/

namespace OrderDesk

------------------------------------------------------------
-- Rounding A Quotient
------------------------------------------------------------

/-
  The integer nearest to `n / d`. A tie goes to the even
  neighbour.
-/
def roundHalfEven
    (n d : Nat) : Nat :=
  let q := n / d
  let r := n % d
  if 2 * r < d ∨ (2 * r = d ∧ q % 2 = 0) then q else q + 1

------------------------------------------------------------
-- Decimals
------------------------------------------------------------

/-
  The number `coefficient / 10 ^ scale`. The coefficient has
  at most 96 bits besides its sign, and at most 28 digits
  stand after the point. A zero has no sign but keeps its
  scale.
-/
structure Decimal where
  coefficient : Int
  scale : Nat
  coefficient_lt : coefficient.natAbs < twoTo 96
  scale_le : scale ≤ 28
deriving DecidableEq

namespace Decimal

/- A small integer as a decimal without digits after the point. -/
def ofNat
    (n : Nat)
    (h : n < twoTo 96 := by decide) : Decimal where
  coefficient := n
  scale := 0
  coefficient_lt := by simpa using h
  scale_le := by decide

instance : OfNat Decimal 0 :=
  ⟨ofNat 0⟩

instance : Inhabited Decimal :=
  ⟨0⟩

/- The decimal with the given parts, if they are in range. -/
def ofParts?
    (coefficient scale : Int) : Option Decimal :=
  if h : coefficient.natAbs < twoTo 96 ∧ 0 ≤ scale ∧ scale ≤ 28 then
    some
      { coefficient := coefficient
        scale := scale.toNat
        coefficient_lt := h.1
        scale_le := by omega }
  else
    none

/- An integer as a decimal, if it is in range. -/
def ofInt?
    (n : Int) : Option Decimal :=
  ofParts? n 0

/- The same number with the opposite sign. -/
def neg
    (a : Decimal) : Decimal :=
  { a with
    coefficient := -a.coefficient
    coefficient_lt := by simpa using a.coefficient_lt }

/- The number is zero, whatever its scale. -/
def IsZero
    (a : Decimal) : Prop :=
  a.coefficient = 0

instance
    (a : Decimal) :
    Decidable a.IsZero :=
  inferInstanceAs (Decidable (a.coefficient = 0))

------------------------------------------------------------
-- Order Of Values
------------------------------------------------------------

/-
  Decimals are compared by value: both coefficients are
  brought to the same scale first.
-/
instance : LT Decimal :=
  ⟨fun a b =>
    a.coefficient * tenTo b.scale < b.coefficient * tenTo a.scale⟩

instance : LE Decimal :=
  ⟨fun a b =>
    a.coefficient * tenTo b.scale ≤ b.coefficient * tenTo a.scale⟩

instance
    (a b : Decimal) :
    Decidable (a < b) :=
  inferInstanceAs (Decidable
    (a.coefficient * tenTo b.scale < b.coefficient * tenTo a.scale))

instance
    (a b : Decimal) :
    Decidable (a ≤ b) :=
  inferInstanceAs (Decidable
    (a.coefficient * tenTo b.scale ≤ b.coefficient * tenTo a.scale))

/- Two decimals denote the same number. -/
def SameValue
    (a b : Decimal) : Prop :=
  a.coefficient * tenTo b.scale = b.coefficient * tenTo a.scale

instance
    (a b : Decimal) :
    Decidable (SameValue a b) :=
  inferInstanceAs (Decidable
    (a.coefficient * tenTo b.scale = b.coefficient * tenTo a.scale))

------------------------------------------------------------
-- Bringing A Result Into Range
------------------------------------------------------------

/-
  How many digits of `m / 10 ^ s` have to be rounded away:
  the fewest that leave at most 28 digits after the point
  and a coefficient of at most 96 bits. Digits before the
  point are never given up.
-/
def excessDigits?
    (m s : Nat) : Option Nat :=
  (List.range (s + 1)).find? fun k =>
    decide (s ≤ k + 28) &&
      decide (roundHalfEven m (tenTo k) < twoTo 96)

/-
  The decimal nearest to `c / 10 ^ s` at the largest scale
  that holds it, or nothing when no scale does.
-/
def fit?
    (c : Int)
    (s : Nat) : Option Decimal :=
  match h : excessDigits? c.natAbs s with
  | none => none
  | some k =>
      some
        { coefficient := c.sign * (roundHalfEven c.natAbs (tenTo k) : Nat)
          scale := s - k
          coefficient_lt := by
            have hk := List.find?_some h
            simp only [Bool.and_eq_true, decide_eq_true_eq] at hk
            have hs : c.sign.natAbs ≤ 1 := by
              rcases Int.lt_trichotomy c 0 with hc | hc | hc
              · simp [Int.sign_eq_neg_one_of_neg hc]
              · simp [hc]
              · simp [Int.sign_eq_one_of_pos hc]
            calc
              (c.sign * (roundHalfEven c.natAbs (tenTo k) : Nat)).natAbs
                  = c.sign.natAbs * roundHalfEven c.natAbs (tenTo k) := by
                    simp [Int.natAbs_mul]
              _ ≤ 1 * roundHalfEven c.natAbs (tenTo k) :=
                    Nat.mul_le_mul_right _ hs
              _ < twoTo 96 := by omega
          scale_le := by
            have hk := List.find?_some h
            simp only [Bool.and_eq_true, decide_eq_true_eq] at hk
            omega }

end Decimal

end OrderDesk
