import Mathlib
import OrderDesk.Decimal.Arithmetic

/-
  This file defines the number that a decimal stands for and
  proves that the order of decimals is the order of these
  numbers.

  Key definitions include:
    * `Decimal.value`

  Key theorems include:
    * `Decimal.le_iff_value_le`
    * `Decimal.lt_iff_value_lt`
    * `Decimal.sameValue_iff_value_eq`
    * `Decimal.abs_value_le`
    * `Decimal.abs_value_le_largest`
-/

namespace OrderDesk

theorem twoTo_eq_pow
    (n : Nat) :
    twoTo n = 2 ^ n :=
  rfl

theorem tenTo_eq_pow
    (n : Nat) :
    tenTo n = 10 ^ n :=
  rfl

namespace Decimal

theorem one_lt_twoTo : 1 < twoTo 96 := by
  decide

theorem two_lt_twoTo : 2 < twoTo 96 := by
  decide

theorem hundred_lt_twoTo : 100 < twoTo 96 := by
  decide

/- The number that a decimal stands for. -/
def value
    (a : Decimal) : ℚ :=
  a.coefficient / 10 ^ a.scale

/- Comparing decimals is comparing their numbers. -/
theorem le_iff_value_le
    (a b : Decimal) :
    a ≤ b ↔ a.value ≤ b.value := by
  have hA : (0 : ℚ) < 10 ^ a.scale := by positivity
  have hB : (0 : ℚ) < 10 ^ b.scale := by positivity
  unfold value
  rw [div_le_div_iff₀ hA hB]
  change
    a.coefficient * tenTo b.scale ≤
        b.coefficient * tenTo a.scale ↔ _
  rw [tenTo_eq_pow, tenTo_eq_pow]
  norm_cast

/- Comparing decimals strictly is comparing their numbers. -/
theorem lt_iff_value_lt
    (a b : Decimal) :
    a < b ↔ a.value < b.value := by
  have hA : (0 : ℚ) < 10 ^ a.scale := by positivity
  have hB : (0 : ℚ) < 10 ^ b.scale := by positivity
  unfold value
  rw [div_lt_div_iff₀ hA hB]
  change
    a.coefficient * tenTo b.scale <
        b.coefficient * tenTo a.scale ↔ _
  rw [tenTo_eq_pow, tenTo_eq_pow]
  norm_cast

theorem not_le_iff
    (a b : Decimal) :
    ¬ a ≤ b ↔ b < a := by
  rw [le_iff_value_le, lt_iff_value_lt, not_le]

theorem not_lt_iff
    (a b : Decimal) :
    ¬ a < b ↔ b ≤ a := by
  rw [le_iff_value_le, lt_iff_value_lt, not_lt]

/- Decimals are the same if they stand for the same number. -/
theorem sameValue_iff_value_eq
    (a b : Decimal) :
    SameValue a b ↔ a.value = b.value := by
  have hA : (10 : ℚ) ^ a.scale ≠ 0 := by positivity
  have hB : (10 : ℚ) ^ b.scale ≠ 0 := by positivity
  unfold value
  rw [div_eq_div_iff hA hB]
  change
    a.coefficient * tenTo b.scale =
        b.coefficient * tenTo a.scale ↔ _
  rw [tenTo_eq_pow, tenTo_eq_pow]
  norm_cast

@[simp] theorem value_zero :
    (0 : Decimal).value = 0 := by
  have hCoefficient : (0 : Decimal).coefficient = 0 := rfl
  simp [value, hCoefficient]

theorem pos_iff_value_pos
    (a : Decimal) :
    0 < a ↔ 0 < a.value := by
  rw [lt_iff_value_lt, value_zero]

@[simp] theorem value_neg
    (a : Decimal) :
    a.neg.value = -a.value := by
  simp [value, neg, neg_div]

theorem isZero_iff_value_eq_zero
    (a : Decimal) :
    a.IsZero ↔ a.value = 0 := by
  have hScale : (10 : ℚ) ^ a.scale ≠ 0 := by positivity
  unfold IsZero value
  rw [div_eq_zero_iff]
  simp [hScale]

/- The size of the number is the size of the coefficient. -/
theorem abs_value
    (a : Decimal) :
    |a.value| = (a.coefficient.natAbs : ℚ) / 10 ^ a.scale := by
  unfold value
  rw [abs_div, abs_of_pos (by positivity : (0 : ℚ) < 10 ^ a.scale)]
  rw [Nat.cast_natAbs, Int.cast_abs]

/- The coefficient is at most the largest of 96 bits. -/
theorem natAbs_coefficient_le
    (a : Decimal) :
    a.coefficient.natAbs ≤ 2 ^ 96 - 1 := by
  have hLt := a.coefficient_lt
  rw [twoTo_eq_pow] at hLt
  omega

/- No decimal is larger than the largest coefficient. -/
theorem abs_value_le
    (a : Decimal) :
    |a.value| ≤ (2 ^ 96 - 1) / 10 ^ a.scale := by
  have hLe : (a.coefficient.natAbs : ℚ) ≤ 2 ^ 96 - 1 := by
    have hNat : (a.coefficient.natAbs : ℚ) ≤ ((2 ^ 96 - 1 : ℕ) : ℚ) :=
      Nat.cast_le.mpr a.natAbs_coefficient_le
    norm_num at hNat ⊢
    exact hNat
  rw [abs_value]
  gcongr

/- Digits after the point only make a decimal smaller. -/
theorem abs_value_le_largest
    (a : Decimal) :
    |a.value| ≤ 2 ^ 96 - 1 := by
  refine le_trans a.abs_value_le ?_
  exact div_le_self (by norm_num) (one_le_pow₀ (by norm_num))

end Decimal

end OrderDesk
