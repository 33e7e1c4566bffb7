import OrderDesk.Proofs.Decimal.Product

/-
  This file proves that rounding keeps the order of exact
  results, although the scale that a result is rounded at
  depends on its size, and that products keep the order of
  the exact ones. In particular a product depends on the
  values of its factors only, not on their scales.

  Key theorems include:
    * `Decimal.Rounds.natAbs_mono`
    * `Decimal.Rounds.value_mono`
    * `Decimal.mul?_mono`
    * `Decimal.exists_mul?_eq_some_of_abs_le`
-/

namespace OrderDesk

namespace Decimal

namespace Rounds

variable {c c' : Int} {s s' k k' : Nat} {a b : Decimal}

theorem mul_pow_le_of_le
    {m n p q t e : Nat}
    (hLe : m * 10 ^ (t + e + p) ≤ n * 10 ^ (t + q)) :
    m * 10 ^ p ≤ n * 10 ^ q := by
  have hScaled :
      10 ^ t * (m * 10 ^ p) ≤ 10 ^ t * (n * 10 ^ q) := by
    calc
      10 ^ t * (m * 10 ^ p)
          ≤ 10 ^ t * (m * 10 ^ p) * 10 ^ e :=
            Nat.le_mul_of_pos_right _ (by positivity)
      _ = m * 10 ^ (t + e + p) := by ring
      _ ≤ n * 10 ^ (t + q) := hLe
      _ = 10 ^ t * (n * 10 ^ q) := by ring
  exact Nat.le_of_mul_le_mul_left hScaled (by positivity)

/- A result that loses no digits keeps its size. -/
theorem natAbs_coefficient_of_exact
    (hRounds : Rounds c s 0 a) :
    a.coefficient.natAbs = c.natAbs := by
  rw [hRounds.natAbs_coefficient, pow_zero, roundHalfEven_one]

------------------------------------------------------------
-- Results At Different Scales
------------------------------------------------------------

/-
  The smaller result is not the one that keeps fewer digits
  after the point, unless it is exact: it would not fit with
  one digit more, and then the larger one would not fit
  either.
-/
theorem natAbs_mono_of_coarser
    (hA : Rounds c s k a)
    (hB : Rounds c' s' k' b)
    (hScale : a.scale < b.scale)
    (hLe : c.natAbs * 10 ^ s' ≤ c'.natAbs * 10 ^ s) :
    a.coefficient.natAbs * 10 ^ b.scale ≤
      b.coefficient.natAbs * 10 ^ a.scale := by
  rcases hA.least with hZero | hFull | ⟨j, hSucc, hLarge⟩
  · subst hZero
    have hExact : a.scale = s := hA.scale_add
    apply hB.le_natAbs a.natAbs_coefficient_le a.scale_le
    rw [hA.natAbs_coefficient_of_exact, hExact]
    exact hLe
  · have hLast := b.scale_le
    omega
  · exfalso
    rcases Nat.exists_eq_add_of_lt hScale with ⟨e, hFiner⟩
    rw [← hA.scale_add, ← hB.scale_add, hFiner, hSucc] at hLe
    have hQuotient :
        c.natAbs * 10 ^ k' ≤ c'.natAbs * 10 ^ j := by
      apply mul_pow_le_of_le (t := a.scale + 1) (e := e)
      convert hLe using 3 <;> ring
    have hRound :=
      roundHalfEven_mono (by positivity) (by positivity) hQuotient
    have hFits := b.natAbs_coefficient_le
    rw [hB.natAbs_coefficient] at hFits
    omega

/-
  A larger result that keeps fewer digits after the point,
  unless it is exact, is at least as large as any decimal
  with more of them.
-/
theorem natAbs_mono_of_finer
    (hA : Rounds c s k a)
    (hB : Rounds c' s' k' b)
    (hScale : b.scale < a.scale)
    (hLe : c.natAbs * 10 ^ s' ≤ c'.natAbs * 10 ^ s) :
    a.coefficient.natAbs * 10 ^ b.scale ≤
      b.coefficient.natAbs * 10 ^ a.scale := by
  rcases Nat.eq_zero_or_pos k' with hZero | hPos
  · subst hZero
    have hExact : b.scale = s' := hB.scale_add
    apply hA.natAbs_le b.natAbs_coefficient_le b.scale_le
    rw [hB.natAbs_coefficient_of_exact, hExact]
    exact hLe
  · have hLast := a.scale_le
    have hLarge := hB.large_of_pos (by omega) hPos
    have hReach :
        (2 ^ 96 - 1) * 10 ^ s' ≤
          c'.natAbs * 10 ^ (b.scale + 1) := by
      rw [← hB.scale_add]
      calc
        (2 ^ 96 - 1) * 10 ^ (b.scale + k')
            = 10 ^ b.scale * ((2 ^ 96 - 1) * 10 ^ k') := by ring
        _ ≤ 10 ^ b.scale * (10 * c'.natAbs) :=
              Nat.mul_le_mul_left _ (by omega)
        _ = c'.natAbs * 10 ^ (b.scale + 1) := by ring
    have hMore := hB.le_natAbs le_rfl (by omega) hReach
    calc
      a.coefficient.natAbs * 10 ^ b.scale
          ≤ (2 ^ 96 - 1) * 10 ^ b.scale :=
            Nat.mul_le_mul_right _ a.natAbs_coefficient_le
      _ ≤ b.coefficient.natAbs * 10 ^ (b.scale + 1) := hMore
      _ ≤ b.coefficient.natAbs * 10 ^ a.scale :=
            Nat.mul_le_mul_left _
              (Nat.pow_le_pow_right (by omega) hScale)

------------------------------------------------------------
-- Rounding Keeps The Order
------------------------------------------------------------

/- Of two results the larger is not rounded to less in size. -/
theorem natAbs_mono
    (hA : Rounds c s k a)
    (hB : Rounds c' s' k' b)
    (hLe : c.natAbs * 10 ^ s' ≤ c'.natAbs * 10 ^ s) :
    a.coefficient.natAbs * 10 ^ b.scale ≤
      b.coefficient.natAbs * 10 ^ a.scale := by
  rcases Nat.lt_trichotomy a.scale b.scale with
    hCoarser | hSame | hFiner
  · exact natAbs_mono_of_coarser hA hB hCoarser hLe
  · rw [← hA.scale_add, ← hB.scale_add, ← hSame] at hLe
    have hQuotient : c.natAbs * 10 ^ k' ≤ c'.natAbs * 10 ^ k :=
      mul_pow_le_of_le (t := a.scale) (e := 0) hLe
    rw [hSame, hA.natAbs_coefficient, hB.natAbs_coefficient]
    exact
      Nat.mul_le_mul_right _
        (roundHalfEven_mono (by positivity) (by positivity)
          hQuotient)
  · exact natAbs_mono_of_finer hA hB hFiner hLe

theorem abs_value_mono
    (hA : Rounds c s k a)
    (hB : Rounds c' s' k' b)
    (hLe : |(c : ℚ) / 10 ^ s| ≤ |(c' : ℚ) / 10 ^ s'|) :
    |a.value| ≤ |b.value| := by
  rw [abs_exact, abs_exact,
    div_le_div_iff₀ (by positivity) (by positivity)] at hLe
  rw [a.abs_value, b.abs_value,
    div_le_div_iff₀ (by positivity) (by positivity)]
  have hNat := natAbs_mono hA hB (by exact_mod_cast hLe)
  exact_mod_cast hNat

/- Rounding keeps the order of results that are not negative. -/
theorem value_mono_of_nonneg
    (hA : Rounds c s k a)
    (hB : Rounds c' s' k' b)
    (hSign : 0 ≤ c)
    (hLe : (c : ℚ) / 10 ^ s ≤ (c' : ℚ) / 10 ^ s') :
    a.value ≤ b.value := by
  have hExact : (0 : ℚ) ≤ (c : ℚ) / 10 ^ s := by positivity
  have hSign' : 0 ≤ c' := by
    by_contra hNegative
    have hBelow : (c' : ℚ) / 10 ^ s' < 0 :=
      div_neg_of_neg_of_pos
        (by exact_mod_cast not_le.mp hNegative) (by positivity)
    linarith
  have hAbs :=
    abs_value_mono hA hB (abs_le_abs_of_nonneg hExact hLe)
  rwa [abs_of_nonneg (hA.value_nonneg hSign),
    abs_of_nonneg (hB.value_nonneg hSign')] at hAbs

/- Rounding keeps the order of exact results, whatever their signs. -/
theorem value_mono
    (hA : Rounds c s k a)
    (hB : Rounds c' s' k' b)
    (hLe : (c : ℚ) / 10 ^ s ≤ (c' : ℚ) / 10 ^ s') :
    a.value ≤ b.value := by
  rcases Int.le_total 0 c with hSign | hSign
  · exact value_mono_of_nonneg hA hB hSign hLe
  · rcases Int.le_total 0 c' with hSign' | hSign'
    · have hNegative := hA.neg.value_nonneg (by omega)
      have hPositive := hB.value_nonneg hSign'
      rw [value_neg] at hNegative
      linarith
    · have hOpposite :=
        value_mono_of_nonneg hB.neg hA.neg (by omega)
          (by
            push_cast
            rw [neg_div, neg_div]
            exact neg_le_neg hLe)
      rw [value_neg, value_neg] at hOpposite
      linarith

end Rounds

------------------------------------------------------------
-- Products
------------------------------------------------------------

variable {a b r a' b' r' : Decimal}

/- Products keep the order of the exact ones. -/
theorem mul?_mono
    (hMul : a.mul? b = some r)
    (hMul' : a'.mul? b' = some r')
    (hLe : a.value * b.value ≤ a'.value * b'.value) :
    r.value ≤ r'.value := by
  rcases exists_rounds_of_mul? hMul with
    ⟨k, rounded, hRounds, hValue, _⟩
  rcases exists_rounds_of_mul? hMul' with
    ⟨k', rounded', hRounds', hValue', _⟩
  rw [← hValue, ← hValue']
  apply hRounds.value_mono hRounds'
  rwa [mul_coefficient_div, mul_coefficient_div]

/- A product that is not larger in size is in range as well. -/
theorem exists_mul?_eq_some_of_abs_le
    (hMul' : a'.mul? b' = some r')
    (hLe : |a.value * b.value| ≤ |a'.value * b'.value|) :
    ∃ r, a.mul? b = some r := by
  apply Option.ne_none_iff_exists'.mp
  intro hNone
  rw [mul?_eq_none_iff] at hNone
  have hNone' : a'.mul? b' = none := by
    rw [mul?_eq_none_iff]
    unfold IsOutOfRange at hNone ⊢
    linarith
  cases hNone'.symm.trans hMul'

end Decimal

end OrderDesk
