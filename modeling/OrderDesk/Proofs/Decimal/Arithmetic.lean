import OrderDesk.Proofs.Decimal.Rounding

/-
  This file relates sums and products of decimals to those
  of the numbers that they stand for.

  Key theorems include:
    * `Decimal.add?_value_le`
    * `Decimal.le_add?_value`
    * `Decimal.exists_add?_eq_some`
    * `Decimal.mul?_cases`
-/

namespace OrderDesk

namespace Decimal

variable {a b r d : Decimal}

------------------------------------------------------------
-- Sums
------------------------------------------------------------

/- The coefficient of a sum at the larger of the two scales. -/
def sumCoefficient
    (a b : Decimal) : Int :=
  a.coefficient * tenTo (max a.scale b.scale - a.scale) +
    b.coefficient * tenTo (max a.scale b.scale - b.scale)

/- A coefficient that is brought to a larger scale keeps its value. -/
theorem coefficient_mul_tenTo_div
    (a : Decimal)
    {s : Nat}
    (hScale : a.scale ≤ s) :
    (a.coefficient * (tenTo (s - a.scale) : ℕ) : ℚ) / 10 ^ s =
      a.value := by
  rcases Nat.exists_eq_add_of_le hScale with ⟨e, rfl⟩
  unfold value
  rw [Nat.add_sub_cancel_left, tenTo_eq_pow]
  push_cast
  rw [pow_add]
  field_simp

theorem sumCoefficient_div
    (a b : Decimal) :
    (sumCoefficient a b : ℚ) / 10 ^ max a.scale b.scale =
      a.value + b.value := by
  have hA :=
    a.coefficient_mul_tenTo_div (le_max_left a.scale b.scale)
  have hB :=
    b.coefficient_mul_tenTo_div (le_max_right a.scale b.scale)
  rw [← hA, ← hB, ← add_div]
  unfold sumCoefficient
  push_cast
  rfl

/- A sum is exact or rounded. -/
theorem add?_cases
    (hAdd : a.add? b = some r) :
    r.value = a.value + b.value ∨
      ∃ k,
        Rounds (sumCoefficient a b) (max a.scale b.scale) k r := by
  unfold add? at hAdd
  by_cases hA : a.IsZero
  · rw [if_pos hA] at hAdd
    cases hAdd
    left
    rw [(isZero_iff_value_eq_zero a).mp hA, zero_add]
  · rw [if_neg hA] at hAdd
    by_cases hB : b.IsZero
    · rw [if_pos hB] at hAdd
      cases hAdd
      left
      rw [(isZero_iff_value_eq_zero b).mp hB, add_zero]
    · rw [if_neg hB] at hAdd
      exact Or.inr (rounds_of_fit?_eq_some hAdd)

/- A sum does not pass a decimal that the exact sum does not pass. -/
theorem add?_value_le
    (hAdd : a.add? b = some r)
    (hLe : a.value + b.value ≤ d.value) :
    r.value ≤ d.value := by
  rcases add?_cases hAdd with hExact | ⟨k, hRounds⟩
  · rw [hExact]
    exact hLe
  · apply hRounds.value_le
    rw [sumCoefficient_div]
    exact hLe

/- A sum does not fall below a decimal that the exact sum does not. -/
theorem le_add?_value
    (hAdd : a.add? b = some r)
    (hLe : d.value ≤ a.value + b.value) :
    d.value ≤ r.value := by
  rcases add?_cases hAdd with hExact | ⟨k, hRounds⟩
  · rw [hExact]
    exact hLe
  · apply hRounds.le_value
    rw [sumCoefficient_div]
    exact hLe

/- A sum is in range if it is no larger than some decimal. -/
theorem exists_add?_eq_some
    (hLe : |a.value + b.value| ≤ |d.value|) :
    ∃ r, a.add? b = some r := by
  unfold add?
  split
  · exact ⟨_, rfl⟩
  · split
    · exact ⟨_, rfl⟩
    · apply exists_fit?_eq_some
      have hTen : (0 : ℚ) < 10 ^ max a.scale b.scale := by positivity
      have hExact := le_trans hLe d.abs_value_le_largest
      rw [← sumCoefficient_div, Rounds.abs_exact,
        div_le_iff₀ hTen] at hExact
      have hNat :
          ((sumCoefficient a b).natAbs : ℚ) ≤
            ((10 ^ max a.scale b.scale * (2 ^ 96 - 1) : ℕ) : ℚ) := by
        push_cast
        linarith
      exact Nat.cast_le.mp hNat

------------------------------------------------------------
-- Products
------------------------------------------------------------

theorem mul_coefficient_div
    (a b : Decimal) :
    ((a.coefficient * b.coefficient : Int) : ℚ) /
        10 ^ (a.scale + b.scale) =
      a.value * b.value := by
  unfold value
  rw [div_mul_div_comm, pow_add]
  push_cast
  rfl

/-
  A product is zero, which stands for a factor of zero or
  for a tiny result, or it is rounded.
-/
theorem mul?_cases
    (hMul : a.mul? b = some r) :
    r.value = 0 ∨
      ∃ k,
        Rounds (a.coefficient * b.coefficient)
          (a.scale + b.scale) k r := by
  unfold mul? at hMul
  split at hMul
  · cases hMul
    exact Or.inl value_zero
  · split at hMul
    · cases hMul
      exact Or.inl value_zero
    · exact Or.inr (rounds_of_fit?_eq_some hMul)

theorem zero_mul?
    (b : Decimal) :
    (0 : Decimal).mul? b = some 0 := by
  unfold mul?
  exact if_pos (Or.inl rfl)

theorem zero_add?
    (b : Decimal) :
    (0 : Decimal).add? b = some b := by
  unfold add?
  exact if_pos rfl

end Decimal

end OrderDesk
