import OrderDesk.Proofs.Decimal.Range

/-
  This file proves how far a product of decimals is from the
  exact one. It is rounded at the largest scale that holds
  it, and the shortcut for tiny products, which yields a zero
  without looking at the digits, yields what rounding would.

  Key theorems include:
    * `Decimal.exists_rounds_of_mul?`
    * `Decimal.mul?_value_le`
    * `Decimal.le_mul?_value`
    * `Decimal.sameValue_of_mul?_le_of_lt`
    * `Decimal.abs_mul_value_le_add_half`
    * `Decimal.abs_mul_value_le_of_isZero`
-/

namespace OrderDesk

namespace Decimal

variable {a b r d : Decimal}

------------------------------------------------------------
-- Rounding To Zero
------------------------------------------------------------

theorem unit_le_abs_value
    (hNe : a.value ≠ 0) :
    1 / 10 ^ a.scale ≤ |a.value| := by
  have hCoefficient : 1 ≤ a.coefficient.natAbs := by
    rw [ne_eq, ← isZero_iff_value_eq_zero] at hNe
    exact Int.natAbs_pos.mpr hNe
  rw [abs_value]
  gcongr
  exact_mod_cast hCoefficient

/- Half a unit of the last digit is at least that of the last scale. -/
theorem half_unit_le
    (a : Decimal) :
    (1 : ℚ) / 2 / 10 ^ 28 ≤ 1 / 2 / 10 ^ a.scale := by
  gcongr
  · norm_num
  · exact a.scale_le

namespace Rounds

variable {c : Int} {s k : Nat}

/- What is less than half of the smallest decimal is rounded to zero. -/
theorem value_eq_zero_of_abs_lt
    (hRounds : Rounds c s k a)
    (hTiny : |(c : ℚ) / 10 ^ s| < 1 / 2 / 10 ^ 28) :
    a.value = 0 := by
  by_contra hNe
  have hUnit := unit_le_abs_value hNe
  have hHalf := hRounds.abs_value_le_add_half
  have hSmallest := a.half_unit_le
  have hTwice :
      (1 : ℚ) / 10 ^ a.scale =
        1 / 2 / 10 ^ a.scale + 1 / 2 / 10 ^ a.scale := by
    ring
  linarith

/- Only at the last scale is anything rounded to zero. -/
theorem scale_eq_of_value_eq_zero
    (hRounds : Rounds c s k a)
    (hZero : a.value = 0)
    (hNe : c ≠ 0) :
    a.scale = 28 := by
  have hSize : 0 < c.natAbs := Int.natAbs_pos.mpr hNe
  have hNone : roundHalfEven c.natAbs (10 ^ k) = 0 := by
    rw [← isZero_iff_value_eq_zero] at hZero
    rw [← hRounds.natAbs_coefficient]
    exact Int.natAbs_eq_zero.mpr hZero
  have hHalf :=
    two_mul_le_two_mul_mul_roundHalfEven_add c.natAbs
      (by positivity : 0 < 10 ^ k)
  rw [hNone, Nat.mul_zero, Nat.mul_zero, Nat.zero_add] at hHalf
  by_contra hScale
  have hShort : a.scale < 28 :=
    lt_of_le_of_ne a.scale_le hScale
  rcases Nat.eq_zero_or_pos k with hZeroDigits | hPos
  · rw [hZeroDigits, pow_zero] at hHalf
    omega
  · have hLarge := hRounds.large_of_pos hShort hPos
    omega

end Rounds

------------------------------------------------------------
-- Products
------------------------------------------------------------

theorem exists_rounds_of_tiny
    (hTiny : |a.value * b.value| < 1 / 2 / 10 ^ 28) :
    ∃ k rounded,
      Rounds (a.coefficient * b.coefficient)
          (a.scale + b.scale) k rounded ∧
        rounded.value = (0 : Decimal).value ∧
          ((0 : Decimal).IsZero ∨ rounded = 0) := by
  have hInRange := not_isOutOfRange_of_tiny hTiny
  rw [← mul_coefficient_div] at hTiny hInRange
  rw [← fit?_eq_none_iff] at hInRange
  rcases Option.ne_none_iff_exists'.mp hInRange with
    ⟨rounded, hFit⟩
  rcases rounds_of_fit?_eq_some hFit with ⟨k, hRounds⟩
  refine ⟨k, rounded, hRounds, ?_, .inl rfl⟩
  rw [hRounds.value_eq_zero_of_abs_lt hTiny, value_zero]

/-
  A product is as large as the exact one rounded: the same
  decimal, or a zero where that is a zero.
-/
theorem exists_rounds_of_mul?
    (hMul : a.mul? b = some r) :
    ∃ k rounded,
      Rounds (a.coefficient * b.coefficient)
          (a.scale + b.scale) k rounded ∧
        rounded.value = r.value ∧ (r.IsZero ∨ rounded = r) := by
  unfold mul? at hMul
  split at hMul
  · rename_i hZero
    cases hMul
    apply exists_rounds_of_tiny
    rw [isZero_iff_value_eq_zero, isZero_iff_value_eq_zero,
      ← mul_eq_zero] at hZero
    rw [hZero, abs_zero]
    positivity
  · split at hMul
    · rename_i hShort
      cases hMul
      exact
        exists_rounds_of_tiny
          (abs_mul_value_lt_of_short hShort.1 hShort.2.1 hShort.2.2)
    · rcases rounds_of_fit?_eq_some hMul with ⟨k, hRounds⟩
      exact ⟨k, r, hRounds, rfl, .inr rfl⟩

/- A product does not pass a decimal that the exact one does not pass. -/
theorem mul?_value_le
    (hMul : a.mul? b = some r)
    (hLe : a.value * b.value ≤ d.value) :
    r.value ≤ d.value := by
  rcases exists_rounds_of_mul? hMul with
    ⟨k, rounded, hRounds, hValue, _⟩
  rw [← mul_coefficient_div] at hLe
  rw [← hValue]
  exact hRounds.value_le hLe

/- A product does not fall below a decimal that the exact one does not. -/
theorem le_mul?_value
    (hMul : a.mul? b = some r)
    (hLe : d.value ≤ a.value * b.value) :
    d.value ≤ r.value := by
  rcases exists_rounds_of_mul? hMul with
    ⟨k, rounded, hRounds, hValue, _⟩
  rw [← mul_coefficient_div] at hLe
  rw [← hValue]
  exact hRounds.le_value hLe

/-
  A product that is within a limit although the exact one is
  not has been rounded down to the limit.
-/
theorem sameValue_of_mul?_le_of_lt
    (hMul : a.mul? b = some r)
    (hLe : r ≤ d)
    (hLt : d.value < a.value * b.value) :
    r.SameValue d := by
  rw [le_iff_value_le] at hLe
  rw [sameValue_iff_value_eq]
  exact le_antisymm hLe (le_mul?_value hMul hLt.le)

/- A product that is zero lost at most half of the smallest decimal. -/
theorem abs_mul_value_le_of_isZero
    (hMul : a.mul? b = some r)
    (hZero : r.IsZero) :
    |a.value * b.value| ≤ 1 / 2 / 10 ^ 28 := by
  rcases exists_rounds_of_mul? hMul with
    ⟨k, rounded, hRounds, hValue, _⟩
  rw [isZero_iff_value_eq_zero] at hZero
  rw [hZero] at hValue
  by_cases hNone : a.coefficient * b.coefficient = 0
  · rw [← mul_coefficient_div, hNone, Int.cast_zero, zero_div,
      abs_zero]
    positivity
  · have hHalf := hRounds.abs_exact_le_add_half
    rw [hRounds.scale_eq_of_value_eq_zero hValue hNone, hValue,
      abs_zero, zero_add, mul_coefficient_div] at hHalf
    exact hHalf

/- A product lost at most half a unit of its last digit. -/
theorem abs_mul_value_le_add_half
    (hMul : a.mul? b = some r) :
    |a.value * b.value| ≤ |r.value| + 1 / 2 / 10 ^ r.scale := by
  rcases exists_rounds_of_mul? hMul with
    ⟨k, rounded, hRounds, _, hZero | rfl⟩
  · have hTiny := abs_mul_value_le_of_isZero hMul hZero
    have hHalf := r.half_unit_le
    have hSize := abs_nonneg r.value
    linarith
  · have hHalf := hRounds.abs_exact_le_add_half
    rwa [mul_coefficient_div] at hHalf

end Decimal

end OrderDesk
