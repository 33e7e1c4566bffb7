import OrderDesk.Proofs.Decimal.Quotient

/-
  This file proves which exact results are too large for a
  decimal: those at least half a unit above the largest
  coefficient. The tie between that coefficient and the one
  above goes to the even neighbour, which is the one above.

  Key definitions include:
    * `Decimal.IsOutOfRange`

  Key theorems include:
    * `roundHalfEven_lt_iff_of_even`
    * `Decimal.fit?_eq_none_iff`
    * `Decimal.add?_eq_none_iff`
    * `Decimal.mul?_eq_none_iff`
    * `Decimal.div?_eq_none_iff_isOutOfRange`
-/

namespace OrderDesk

/-
  Rounding stays below an even number as long as the exact
  quotient is less than half a unit below it or further away:
  a tie is rounded up to the even number.
-/
theorem roundHalfEven_lt_iff_of_even
    {n d g : Nat}
    (hPos : 0 < d)
    (hEven : g % 2 = 0) :
    roundHalfEven n d < g ↔ 2 * n + d < 2 * (g * d) := by
  have hDivide := Nat.div_add_mod' n d
  have hRest := Nat.mod_lt n hPos
  unfold roundHalfEven
  dsimp only
  generalize n / d = q at hDivide
  generalize n % d = r at hDivide hRest
  rcases Nat.lt_trichotomy (q + 1) g with hBelow | hNext | hAbove
  · have hProduct : (q + 2) * d ≤ g * d :=
      Nat.mul_le_mul_right d hBelow
    rw [Nat.add_mul] at hProduct
    split <;> omega
  · subst hNext
    rw [Nat.add_mul, Nat.one_mul]
    split <;> omega
  · have hProduct : g * d ≤ q * d :=
      Nat.mul_le_mul_right d (by omega)
    split <;> omega

namespace Decimal

------------------------------------------------------------
-- Numbers Without A Decimal
------------------------------------------------------------

/-
  The number is at least half a unit above the largest
  decimal, or below its opposite.
-/
def IsOutOfRange
    (x : ℚ) : Prop :=
  2 ^ 97 - 1 ≤ 2 * |x|

/- What is no larger than the largest decimal is in range. -/
theorem not_isOutOfRange_of_abs_le
    {x : ℚ}
    (hLe : |x| ≤ 2 ^ 96 - 1) :
    ¬ IsOutOfRange x := by
  unfold IsOutOfRange
  rw [not_le]
  linarith

/- What is less than half of the smallest decimal is in range. -/
theorem not_isOutOfRange_of_tiny
    {x : ℚ}
    (hTiny : |x| < 1 / 2 / 10 ^ 28) :
    ¬ IsOutOfRange x := by
  have hLargest : (1 : ℚ) / 2 / 10 ^ 28 ≤ 2 ^ 96 - 1 := by
    norm_num
  exact not_isOutOfRange_of_abs_le (hTiny.le.trans hLargest)

theorem not_isOutOfRange_value
    (a : Decimal) :
    ¬ IsOutOfRange a.value :=
  not_isOutOfRange_of_abs_le a.abs_value_le_largest

/- The range in terms of a coefficient and a scale. -/
theorem isOutOfRange_div_iff
    (c : Int)
    (s : Nat) :
    IsOutOfRange ((c : ℚ) / 10 ^ s) ↔
      2 * (2 ^ 96 * 10 ^ s) ≤ 2 * c.natAbs + 10 ^ s := by
  have hTen : (0 : ℚ) < 10 ^ s := by positivity
  unfold IsOutOfRange
  rw [Rounds.abs_exact, ← mul_div_assoc, le_div_iff₀ hTen,
    ← Nat.cast_le (α := ℚ)]
  push_cast
  constructor <;> intro hLe <;> linarith

/-
  An exact result cannot be brought into range if and only if
  it is out of range: giving up all digits after the point
  does not help, and giving up fewer does even less.
-/
theorem fit?_eq_none_iff
    (c : Int)
    (s : Nat) :
    fit? c s = none ↔ IsOutOfRange ((c : ℚ) / 10 ^ s) := by
  rw [isOutOfRange_div_iff]
  constructor
  · intro hNone
    by_contra hRange
    have hRound :=
      (roundHalfEven_lt_iff_of_even (n := c.natAbs) (g := 2 ^ 96)
        (by positivity : 0 < 10 ^ s) (by decide)).mpr
        (not_le.mp hRange)
    unfold fit? at hNone
    split at hNone
    · rename_i hExcess
      unfold excessDigits? at hExcess
      rw [List.find?_range_eq_none] at hExcess
      have hLast := hExcess s (Nat.lt_succ_self s)
      simp only [Bool.not_eq_true', Bool.and_eq_false_iff,
        decide_eq_false_iff_not] at hLast
      simp only [twoTo_eq_pow, tenTo_eq_pow] at hLast
      omega
    · cases hNone
  · intro hRange
    by_contra hSome
    rcases Option.ne_none_iff_exists'.mp hSome with ⟨a, hFit⟩
    rcases rounds_of_fit?_eq_some hFit with ⟨k, hRounds⟩
    have hFits : roundHalfEven c.natAbs (10 ^ k) < 2 ^ 96 := by
      have hCoefficient := a.natAbs_coefficient_le
      rw [hRounds.natAbs_coefficient] at hCoefficient
      omega
    rw [roundHalfEven_lt_iff_of_even (by positivity) (by decide)]
      at hFits
    have hFewer : 10 ^ k ≤ 10 ^ s :=
      Nat.pow_le_pow_right (by omega)
        (by have hScale := hRounds.scale_add; omega)
    omega

------------------------------------------------------------
-- Results Without A Decimal
------------------------------------------------------------

variable {a b : Decimal}

/- There is no sum if and only if the exact sum is out of range. -/
theorem add?_eq_none_iff :
    a.add? b = none ↔ IsOutOfRange (a.value + b.value) := by
  unfold add?
  by_cases hA : a.IsZero
  · rw [if_pos hA]
    rw [isZero_iff_value_eq_zero] at hA
    rw [hA, zero_add]
    exact iff_of_false (Option.some_ne_none b)
      b.not_isOutOfRange_value
  · rw [if_neg hA]
    by_cases hB : b.IsZero
    · rw [if_pos hB]
      rw [isZero_iff_value_eq_zero] at hB
      rw [hB, add_zero]
      exact iff_of_false (Option.some_ne_none a)
        a.not_isOutOfRange_value
    · rw [if_neg hB, ← sumCoefficient_div]
      exact fit?_eq_none_iff (sumCoefficient a b) _

/-
  Two short coefficients with more than 47 digits after the
  point between them make a product that is nearer to zero
  than to the smallest decimal.
-/
theorem abs_mul_value_lt_of_short
    (hA : a.coefficient.natAbs < twoTo 32)
    (hB : b.coefficient.natAbs < twoTo 32)
    (hScale : 47 < a.scale + b.scale) :
    |a.value * b.value| < 1 / 2 / 10 ^ 28 := by
  rw [twoTo_eq_pow] at hA hB
  have hProduct :
      (a.coefficient * b.coefficient).natAbs ≤
        (2 ^ 32 - 1) * (2 ^ 32 - 1) := by
    rw [Int.natAbs_mul]
    exact Nat.mul_le_mul (by omega) (by omega)
  have hCast :
      ((a.coefficient * b.coefficient).natAbs : ℚ) ≤
        (2 ^ 32 - 1) * (2 ^ 32 - 1) := by
    have hNat := Nat.cast_le (α := ℚ) |>.mpr hProduct
    norm_num at hNat ⊢
    exact hNat
  have hPower : (10 : ℚ) ^ 48 ≤ 10 ^ (a.scale + b.scale) :=
    pow_le_pow_right₀ (by norm_num) hScale
  rw [← mul_coefficient_div, Rounds.abs_exact]
  calc
    ((a.coefficient * b.coefficient).natAbs : ℚ) /
          10 ^ (a.scale + b.scale)
        ≤ (2 ^ 32 - 1) * (2 ^ 32 - 1) / 10 ^ 48 := by gcongr
    _ < 1 / 2 / 10 ^ 28 := by norm_num

/- There is no product if and only if the exact one is out of range. -/
theorem mul?_eq_none_iff :
    a.mul? b = none ↔ IsOutOfRange (a.value * b.value) := by
  unfold mul?
  split
  · rename_i hZero
    rw [isZero_iff_value_eq_zero, isZero_iff_value_eq_zero,
      ← mul_eq_zero] at hZero
    rw [hZero]
    exact iff_of_false (Option.some_ne_none 0)
      (not_isOutOfRange_of_abs_le (by norm_num))
  · split
    · rename_i hShort
      have hTiny :=
        abs_mul_value_lt_of_short hShort.1 hShort.2.1 hShort.2.2
      exact iff_of_false (Option.some_ne_none 0)
        (not_isOutOfRange_of_tiny hTiny)
    · rw [← mul_coefficient_div]
      exact fit?_eq_none_iff _ _

/- There is no quotient if and only if the exact one is out of range. -/
theorem div?_eq_none_iff_isOutOfRange
    (hB : b.value ≠ 0) :
    a.div? b = none ↔ IsOutOfRange (a.value / b.value) := by
  have hSize : 0 < |b.value| := abs_pos.mpr hB
  unfold IsOutOfRange
  rw [div?_eq_none_iff hB, abs_div, ← mul_div_assoc,
    le_div_iff₀ hSize]

end Decimal

end OrderDesk
