import OrderDesk.Proofs.Decimal.Value

/-
  This file proves that bringing an exact result into range
  is rounding: the result is off by at most half a unit of
  its last digit, and it never passes a decimal that the
  exact result does not pass.

  Key definitions include:
    * `Decimal.Rounds`

  Key theorems include:
    * `roundHalfEven_le_of_le_mul`
    * `le_roundHalfEven_of_mul_le`
    * `roundHalfEven_mono`
    * `Decimal.rounds_of_fit?_eq_some`
    * `Decimal.exists_fit?_eq_some`
    * `Decimal.Rounds.value_le`
    * `Decimal.Rounds.le_value`
-/

namespace OrderDesk

------------------------------------------------------------
-- The Nearest Integer
------------------------------------------------------------

/- The nearest integer is at most half a unit too large. -/
theorem two_mul_mul_roundHalfEven_le
    (n d : Nat) :
    2 * (d * roundHalfEven n d) ≤ 2 * n + d := by
  have hDivide := Nat.div_add_mod n d
  unfold roundHalfEven
  dsimp only
  split
  · omega
  · rw [Nat.mul_add, Nat.mul_one]
    omega

/- The nearest integer is at most half a unit too small. -/
theorem two_mul_le_two_mul_mul_roundHalfEven_add
    (n : Nat)
    {d : Nat}
    (hPos : 0 < d) :
    2 * n ≤ 2 * (d * roundHalfEven n d) + d := by
  have hDivide := Nat.div_add_mod n d
  have hRest := Nat.mod_lt n hPos
  unfold roundHalfEven
  dsimp only
  split
  · omega
  · rw [Nat.mul_add, Nat.mul_one]
    omega

/- Rounding does not pass an integer from below. -/
theorem roundHalfEven_le_of_le_mul
    {n d g : Nat}
    (hPos : 0 < d)
    (hLe : n ≤ d * g) :
    roundHalfEven n d ≤ g := by
  have hRound := two_mul_mul_roundHalfEven_le n d
  have hTwice : d * (2 * roundHalfEven n d) ≤ d * (2 * g + 1) := by
    calc
      d * (2 * roundHalfEven n d)
          = 2 * (d * roundHalfEven n d) := by ring
      _ ≤ 2 * n + d := hRound
      _ ≤ 2 * (d * g) + d := by omega
      _ = d * (2 * g + 1) := by ring
  have hCancel := Nat.le_of_mul_le_mul_left hTwice hPos
  omega

/- Rounding does not pass an integer from above. -/
theorem le_roundHalfEven_of_mul_le
    {n d g : Nat}
    (hPos : 0 < d)
    (hLe : d * g ≤ n) :
    g ≤ roundHalfEven n d := by
  have hRound := two_mul_le_two_mul_mul_roundHalfEven_add n hPos
  have hTwice : d * (2 * g) ≤ d * (2 * roundHalfEven n d + 1) := by
    calc
      d * (2 * g) = 2 * (d * g) := by ring
      _ ≤ 2 * n := by omega
      _ ≤ 2 * (d * roundHalfEven n d) + d := hRound
      _ = d * (2 * roundHalfEven n d + 1) := by ring
  have hCancel := Nat.le_of_mul_le_mul_left hTwice hPos
  omega

@[simp] theorem roundHalfEven_one
    (n : Nat) :
    roundHalfEven n 1 = n := by
  have hUpper := two_mul_mul_roundHalfEven_le n 1
  have hLower :=
    two_mul_le_two_mul_mul_roundHalfEven_add n Nat.one_pos
  omega

theorem roundHalfEven_mul_left
    {k : Nat}
    (hK : 0 < k)
    (n d : Nat) :
    roundHalfEven (k * n) (k * d) = roundHalfEven n d := by
  have hTwice :
      ∀ r : Nat, 2 * (k * r) < k * d ↔ 2 * r < d := by
    intro r
    rw [Nat.mul_left_comm]
    exact Nat.mul_lt_mul_left hK
  have hHalf :
      ∀ r : Nat, 2 * (k * r) = k * d ↔ 2 * r = d := by
    intro r
    rw [Nat.mul_left_comm]
    exact Nat.mul_right_inj hK.ne'
  unfold roundHalfEven
  dsimp only
  rw [Nat.mul_div_mul_left _ _ hK, Nat.mul_mod_mul_left]
  simp only [hTwice, hHalf]

theorem roundHalfEven_le_of_le
    {n m : Nat}
    (d : Nat)
    (hLe : n ≤ m) :
    roundHalfEven n d ≤ roundHalfEven m d := by
  have hQuotient : n / d ≤ m / d := Nat.div_le_div_right hLe
  have hDivide := Nat.div_add_mod n d
  have hDivide' := Nat.div_add_mod m d
  unfold roundHalfEven
  dsimp only
  rcases Nat.lt_or_eq_of_le hQuotient with hBelow | hSame
  · split <;> split <;> omega
  · rw [hSame] at hDivide ⊢
    split <;> split <;> omega

/- Of two quotients the larger is not rounded to less. -/
theorem roundHalfEven_mono
    {n d n' d' : Nat}
    (hD : 0 < d)
    (hD' : 0 < d')
    (hLe : n * d' ≤ n' * d) :
    roundHalfEven n d ≤ roundHalfEven n' d' := by
  rw [← roundHalfEven_mul_left hD' n d,
    ← roundHalfEven_mul_left hD n' d', Nat.mul_comm d d']
  apply roundHalfEven_le_of_le
  rwa [Nat.mul_comm d' n, Nat.mul_comm d n']

theorem roundHalfEven_congr
    {n d n' d' : Nat}
    (hD : 0 < d)
    (hD' : 0 < d')
    (hSame : (n : ℚ) / d = n' / d') :
    roundHalfEven n d = roundHalfEven n' d' := by
  have hCross : n * d' = n' * d := by
    rw [div_eq_div_iff (by positivity) (by positivity)] at hSame
    exact_mod_cast hSame
  exact
    le_antisymm (roundHalfEven_mono hD hD' hCross.le)
      (roundHalfEven_mono hD' hD hCross.ge)

namespace Decimal

------------------------------------------------------------
-- Rounded Results
------------------------------------------------------------

/-
  The decimal `a` is `c / 10 ^ s` with `k` digits rounded
  away, and no fewer digits would do.
-/
structure Rounds
    (c : Int)
    (s k : Nat)
    (a : Decimal) : Prop where
  scale_add : a.scale + k = s
  coefficient_eq :
    a.coefficient = c.sign * roundHalfEven c.natAbs (10 ^ k)
  least :
    k = 0 ∨ a.scale = 28 ∨
      ∃ j, k = j + 1 ∧ 2 ^ 96 ≤ roundHalfEven c.natAbs (10 ^ j)

/- What is brought into range is rounded. -/
theorem rounds_of_fit?_eq_some
    {c : Int}
    {s : Nat}
    {a : Decimal}
    (hFit : fit? c s = some a) :
    ∃ k, Rounds c s k a := by
  unfold fit? at hFit
  split at hFit
  · cases hFit
  · rename_i k hExcess
    cases hFit
    unfold excessDigits? at hExcess
    rw [List.find?_range_eq_some] at hExcess
    rcases hExcess with ⟨hFits, hRange, hLeast⟩
    simp only [Bool.and_eq_true, decide_eq_true_eq,
      List.mem_range, Bool.not_eq_true', Bool.and_eq_false_iff,
      decide_eq_false_iff_not] at hFits hRange hLeast
    simp only [twoTo_eq_pow, tenTo_eq_pow] at hLeast
    refine ⟨k, ⟨by dsimp only; omega, rfl, ?_⟩⟩
    cases k with
    | zero => exact Or.inl rfl
    | succ j =>
        rcases hLeast j (Nat.lt_succ_self j) with hScale | hRound
        · exact Or.inr (Or.inl (by dsimp only; omega))
        · exact Or.inr (Or.inr ⟨j, rfl, by omega⟩)

/-
  A result is in range if its integral part is: digits after
  the point can always be given up.
-/
theorem exists_fit?_eq_some
    {c : Int}
    {s : Nat}
    (hRange : c.natAbs ≤ 10 ^ s * (2 ^ 96 - 1)) :
    ∃ a, fit? c s = some a := by
  unfold fit?
  split
  · rename_i hExcess
    unfold excessDigits? at hExcess
    rw [List.find?_range_eq_none] at hExcess
    have hLast := hExcess s (Nat.lt_succ_self s)
    have hRound :=
      roundHalfEven_le_of_le_mul
        (by positivity : 0 < 10 ^ s) hRange
    simp only [Bool.not_eq_true', Bool.and_eq_false_iff,
      decide_eq_false_iff_not] at hLast
    simp only [twoTo_eq_pow, tenTo_eq_pow] at hLast
    omega
  · exact ⟨_, rfl⟩

namespace Rounds

variable {c : Int} {s k : Nat} {a : Decimal}

theorem natAbs_coefficient
    (hRounds : Rounds c s k a) :
    a.coefficient.natAbs = roundHalfEven c.natAbs (10 ^ k) := by
  rw [hRounds.coefficient_eq, Int.natAbs_mul]
  by_cases hZero : c = 0
  · have hNone : roundHalfEven 0 (10 ^ k) = 0 := by
      have hLe :=
        roundHalfEven_le_of_le_mul (n := 0) (g := 0)
          (by positivity : 0 < 10 ^ k) (by simp)
      omega
    simp [hZero, hNone]
  · have hSign : c.sign.natAbs = 1 := Int.natAbs_sign_of_ne_zero hZero
    rw [hSign, Nat.one_mul, Int.natAbs_natCast]

/- Unless the scale is full, the size was too large for one more digit. -/
theorem large_of_pos
    (hRounds : Rounds c s k a)
    (hScale : a.scale < 28)
    (hPos : 0 < k) :
    (2 ^ 97 - 1) * 10 ^ k ≤ 20 * c.natAbs := by
  rcases hRounds.least with hZero | hFull | ⟨j, hSucc, hLarge⟩
  · omega
  · omega
  · have hRound :=
      two_mul_mul_roundHalfEven_le c.natAbs (10 ^ j)
    have hStep :
        10 ^ j * (2 * 2 ^ 96) ≤ 2 * c.natAbs + 10 ^ j := by
      calc
        10 ^ j * (2 * 2 ^ 96)
            ≤ 10 ^ j *
                (2 * roundHalfEven c.natAbs (10 ^ j)) :=
              Nat.mul_le_mul_left _ (by omega)
        _ = 2 * (10 ^ j * roundHalfEven c.natAbs (10 ^ j)) := by
              ring
        _ ≤ 2 * c.natAbs + 10 ^ j := hRound
    rw [hSucc, pow_succ]
    omega

/-
  The rounded size does not pass a decimal from below. A
  decimal with a finer scale would be smaller than the exact
  result already.
-/
theorem natAbs_le
    (hRounds : Rounds c s k a)
    {n t : Nat}
    (hN : n ≤ 2 ^ 96 - 1)
    (hT : t ≤ 28)
    (hLe : c.natAbs * 10 ^ t ≤ n * 10 ^ s) :
    a.coefficient.natAbs * 10 ^ t ≤ n * 10 ^ a.scale := by
  rw [hRounds.natAbs_coefficient]
  rw [← hRounds.scale_add] at hLe
  rcases Nat.lt_or_ge a.scale t with hFiner | hCoarser
  · rcases Nat.eq_zero_or_pos k with hZero | hPos
    · subst hZero
      simpa using hLe
    · have hLarge := hRounds.large_of_pos (by omega) hPos
      have hTen : 0 < 10 ^ k := by positivity
      have hFine : 10 * 10 ^ a.scale ≤ 10 ^ t := by
        rw [← pow_succ']
        exact Nat.pow_le_pow_right (by omega) hFiner
      have hSmall : c.natAbs * 10 ≤ n * 10 ^ k := by
        have hScaled :
            10 ^ a.scale * (c.natAbs * 10) ≤
              10 ^ a.scale * (n * 10 ^ k) := by
          calc
            10 ^ a.scale * (c.natAbs * 10)
                = c.natAbs * (10 * 10 ^ a.scale) := by ring
            _ ≤ c.natAbs * 10 ^ t := Nat.mul_le_mul_left _ hFine
            _ ≤ n * 10 ^ (a.scale + k) := hLe
            _ = 10 ^ a.scale * (n * 10 ^ k) := by ring
        exact Nat.le_of_mul_le_mul_left hScaled (by positivity)
      have hBound : n * 10 ^ k ≤ (2 ^ 96 - 1) * 10 ^ k :=
        Nat.mul_le_mul_right _ hN
      omega
  · rcases Nat.exists_eq_add_of_le hCoarser with ⟨e, hScale⟩
    rw [hScale] at hLe ⊢
    have hGrid : c.natAbs ≤ 10 ^ k * (n * 10 ^ e) := by
      have hScaled :
          10 ^ t * c.natAbs ≤ 10 ^ t * (10 ^ k * (n * 10 ^ e)) := by
        calc
          10 ^ t * c.natAbs = c.natAbs * 10 ^ t := by ring
          _ ≤ n * 10 ^ (t + e + k) := hLe
          _ = 10 ^ t * (10 ^ k * (n * 10 ^ e)) := by ring
      exact Nat.le_of_mul_le_mul_left hScaled (by positivity)
    have hRound :=
      roundHalfEven_le_of_le_mul
        (by positivity : 0 < 10 ^ k) hGrid
    calc
      roundHalfEven c.natAbs (10 ^ k) * 10 ^ t
          ≤ n * 10 ^ e * 10 ^ t := Nat.mul_le_mul_right _ hRound
      _ = n * 10 ^ (t + e) := by ring

/-
  The rounded size does not pass a decimal from above. A
  decimal with a finer scale is at most the largest
  coefficient, and the rounded size reaches that.
-/
theorem le_natAbs
    (hRounds : Rounds c s k a)
    {n t : Nat}
    (hN : n ≤ 2 ^ 96 - 1)
    (hT : t ≤ 28)
    (hLe : n * 10 ^ s ≤ c.natAbs * 10 ^ t) :
    n * 10 ^ a.scale ≤ a.coefficient.natAbs * 10 ^ t := by
  rw [hRounds.natAbs_coefficient]
  rw [← hRounds.scale_add] at hLe
  rcases Nat.lt_or_ge a.scale t with hFiner | hCoarser
  · rcases Nat.eq_zero_or_pos k with hZero | hPos
    · subst hZero
      simpa using hLe
    · have hLarge := hRounds.large_of_pos (by omega) hPos
      have hRound :=
        two_mul_le_two_mul_mul_roundHalfEven_add c.natAbs
          (by positivity : 0 < 10 ^ k)
      have hFine : 10 * 10 ^ a.scale ≤ 10 ^ t := by
        rw [← pow_succ']
        exact Nat.pow_le_pow_right (by omega) hFiner
      have hReach :
          10 ^ k * (2 ^ 97 - 1) ≤
            10 ^ k *
              (20 * roundHalfEven c.natAbs (10 ^ k) + 10) := by
        rw [Nat.mul_add, Nat.mul_left_comm]
        omega
      have hCancel :=
        Nat.le_of_mul_le_mul_left hReach (by positivity)
      calc
        n * 10 ^ a.scale
            ≤ 10 * roundHalfEven c.natAbs (10 ^ k) *
                10 ^ a.scale :=
              Nat.mul_le_mul_right _ (by omega)
        _ = roundHalfEven c.natAbs (10 ^ k) *
                (10 * 10 ^ a.scale) := by ring
        _ ≤ roundHalfEven c.natAbs (10 ^ k) * 10 ^ t :=
              Nat.mul_le_mul_left _ hFine
  · rcases Nat.exists_eq_add_of_le hCoarser with ⟨e, hScale⟩
    rw [hScale] at hLe ⊢
    have hGrid : 10 ^ k * (n * 10 ^ e) ≤ c.natAbs := by
      have hScaled :
          10 ^ t * (10 ^ k * (n * 10 ^ e)) ≤ 10 ^ t * c.natAbs := by
        calc
          10 ^ t * (10 ^ k * (n * 10 ^ e))
              = n * 10 ^ (t + e + k) := by ring
          _ ≤ c.natAbs * 10 ^ t := hLe
          _ = 10 ^ t * c.natAbs := by ring
      exact Nat.le_of_mul_le_mul_left hScaled (by positivity)
    have hRound :=
      le_roundHalfEven_of_mul_le
        (by positivity : 0 < 10 ^ k) hGrid
    calc
      n * 10 ^ (t + e) = n * 10 ^ e * 10 ^ t := by ring
      _ ≤ roundHalfEven c.natAbs (10 ^ k) * 10 ^ t :=
            Nat.mul_le_mul_right _ hRound

theorem neg
    (hRounds : Rounds c s k a) :
    Rounds (-c) s k a.neg where
  scale_add := hRounds.scale_add
  coefficient_eq := by
    change -a.coefficient = _
    rw [hRounds.coefficient_eq, Int.sign_neg, Int.natAbs_neg,
      Int.neg_mul]
  least := by
    rw [Int.natAbs_neg]
    exact hRounds.least

theorem value_nonneg
    (hRounds : Rounds c s k a)
    (hSign : 0 ≤ c) :
    0 ≤ a.value := by
  have hCoefficient : 0 ≤ a.coefficient := by
    rw [hRounds.coefficient_eq]
    have hUnit := Int.sign_nonneg_iff.mpr hSign
    positivity
  unfold value
  positivity

theorem abs_exact
    (c : Int)
    (s : Nat) :
    |(c : ℚ) / 10 ^ s| = (c.natAbs : ℚ) / 10 ^ s := by
  rw [abs_div, abs_of_pos (by positivity : (0 : ℚ) < 10 ^ s)]
  rw [Nat.cast_natAbs, Int.cast_abs]

/- Rounding does not pass the size of a decimal from below. -/
theorem abs_value_le
    (hRounds : Rounds c s k a)
    {b : Decimal}
    (hLe : |(c : ℚ) / 10 ^ s| ≤ |b.value|) :
    |a.value| ≤ |b.value| := by
  have hTenS : (0 : ℚ) < 10 ^ s := by positivity
  have hTenA : (0 : ℚ) < 10 ^ a.scale := by positivity
  have hTenB : (0 : ℚ) < 10 ^ b.scale := by positivity
  rw [abs_exact, b.abs_value, div_le_div_iff₀ hTenS hTenB] at hLe
  rw [a.abs_value, b.abs_value, div_le_div_iff₀ hTenA hTenB]
  have hNat :=
    hRounds.natAbs_le b.natAbs_coefficient_le b.scale_le
      (by exact_mod_cast hLe)
  exact_mod_cast hNat

/- Rounding does not pass the size of a decimal from above. -/
theorem le_abs_value
    (hRounds : Rounds c s k a)
    {b : Decimal}
    (hLe : |b.value| ≤ |(c : ℚ) / 10 ^ s|) :
    |b.value| ≤ |a.value| := by
  have hTenS : (0 : ℚ) < 10 ^ s := by positivity
  have hTenA : (0 : ℚ) < 10 ^ a.scale := by positivity
  have hTenB : (0 : ℚ) < 10 ^ b.scale := by positivity
  rw [abs_exact, b.abs_value, div_le_div_iff₀ hTenB hTenS] at hLe
  rw [a.abs_value, b.abs_value, div_le_div_iff₀ hTenB hTenA]
  have hNat :=
    hRounds.le_natAbs b.natAbs_coefficient_le b.scale_le
      (by exact_mod_cast hLe)
  exact_mod_cast hNat

/- Rounding does not pass a decimal from below. -/
theorem value_le
    (hRounds : Rounds c s k a)
    {b : Decimal}
    (hLe : (c : ℚ) / 10 ^ s ≤ b.value) :
    a.value ≤ b.value := by
  rcases Int.le_total 0 c with hSign | hSign
  · have hExact : (0 : ℚ) ≤ (c : ℚ) / 10 ^ s := by positivity
    have hB : 0 ≤ b.value := le_trans hExact hLe
    have hAbs := hRounds.abs_value_le (b := b)
      (by rwa [abs_of_nonneg hExact, abs_of_nonneg hB])
    rwa [abs_of_nonneg (hRounds.value_nonneg hSign),
      abs_of_nonneg hB] at hAbs
  · have hNeg : 0 ≤ a.neg.value :=
      hRounds.neg.value_nonneg (by omega)
    rw [value_neg] at hNeg
    rcases le_total 0 b.value with hB | hB
    · linarith
    · have hExact : (c : ℚ) / 10 ^ s ≤ 0 := le_trans hLe hB
      have hAbs := hRounds.le_abs_value (b := b)
        (by
          rw [abs_of_nonpos hExact, abs_of_nonpos hB]
          linarith)
      rw [abs_of_nonpos hB, abs_of_nonpos (by linarith)] at hAbs
      linarith

/- Rounding does not pass a decimal from above. -/
theorem le_value
    (hRounds : Rounds c s k a)
    {b : Decimal}
    (hLe : b.value ≤ (c : ℚ) / 10 ^ s) :
    b.value ≤ a.value := by
  have hNeg := hRounds.neg.value_le (b := b.neg)
    (by
      rw [value_neg]
      push_cast
      rw [neg_div]
      linarith)
  rw [value_neg, value_neg] at hNeg
  linarith

theorem value_eq
    (hRounds : Rounds c s 0 a) :
    a.value = (c : ℚ) / 10 ^ s := by
  have hScale : a.scale = s := hRounds.scale_add
  have hCoefficient : a.coefficient = c := by
    rw [hRounds.coefficient_eq, pow_zero, roundHalfEven_one]
    exact Int.sign_mul_natAbs c
  unfold value
  rw [hScale, hCoefficient]

/- The result is at most half a unit of its last digit too large. -/
theorem abs_value_le_add_half
    (hRounds : Rounds c s k a) :
    |a.value| ≤ |(c : ℚ) / 10 ^ s| + 1 / 2 / 10 ^ a.scale := by
  have hRound :=
    two_mul_mul_roundHalfEven_le c.natAbs (10 ^ k)
  have hCast :
      2 * ((10 : ℚ) ^ k * a.coefficient.natAbs) ≤
        2 * c.natAbs + 10 ^ k := by
    rw [hRounds.natAbs_coefficient]
    exact_mod_cast hRound
  rw [abs_exact, a.abs_value, ← hRounds.scale_add]
  rw [div_add_div _ _ (by positivity) (by positivity)]
  rw [div_le_div_iff₀ (by positivity) (by positivity)]
  rw [pow_add]
  have hScale : (0 : ℚ) < 10 ^ a.scale := by positivity
  nlinarith [mul_le_mul_of_nonneg_left hCast
    (mul_pos hScale hScale).le]

/- The result is at most half a unit of its last digit too small. -/
theorem abs_exact_le_add_half
    (hRounds : Rounds c s k a) :
    |(c : ℚ) / 10 ^ s| ≤ |a.value| + 1 / 2 / 10 ^ a.scale := by
  have hRound :=
    two_mul_le_two_mul_mul_roundHalfEven_add c.natAbs
      (by positivity : 0 < 10 ^ k)
  have hCast :
      2 * (c.natAbs : ℚ) ≤
        2 * ((10 : ℚ) ^ k * a.coefficient.natAbs) + 10 ^ k := by
    rw [hRounds.natAbs_coefficient]
    exact_mod_cast hRound
  rw [abs_exact, a.abs_value, ← hRounds.scale_add]
  rw [div_add_div _ _ (by positivity) (by positivity)]
  rw [div_le_div_iff₀ (by positivity) (by positivity)]
  rw [pow_add]
  have hScale : (0 : ℚ) < 10 ^ a.scale := by positivity
  nlinarith [mul_le_mul_of_nonneg_left hCast
    (mul_pos hScale hScale).le]

end Rounds

end Decimal

end OrderDesk
