import OrderDesk.Binary64
import OrderDesk.Proofs.Decimal.Rounding

/-
  This file proves how far a double is from the quotient
  that it is the nearest double to. Everything is said in
  rational numbers: the nearest double depends only on the
  quotient, not on how it is written.

  Key definitions include:
    * `Binary64.magnitude`
    * `Binary64.nearest?`
    * `Binary64.IsExponentOf`

  Key theorems include:
    * `Binary64.ofRatio?_eq_nearest?`
    * `Binary64.exists_significand`
    * `Binary64.abs_magnitude_sub_le`
    * `Binary64.exists_nearest?_exact`
-/

namespace OrderDesk

------------------------------------------------------------
-- The Nearest Integer Of A Quotient
------------------------------------------------------------

/- The nearest integer is at most a half away. -/
theorem abs_roundHalfEven_sub_le
    (n : Nat)
    {d : Nat}
    (hD : 0 < d) :
    |(roundHalfEven n d : ℚ) - n / d| ≤ 1 / 2 := by
  have hDCast : (0 : ℚ) < d := by exact_mod_cast hD
  have hUpper : 2 * ((d : ℚ) * roundHalfEven n d) ≤ 2 * n + d := by
    exact_mod_cast two_mul_mul_roundHalfEven_le n d
  have hLower : 2 * (n : ℚ) ≤ 2 * (d * roundHalfEven n d) + d := by
    exact_mod_cast two_mul_le_two_mul_mul_roundHalfEven_add n hD
  have hScaled :
      (roundHalfEven n d : ℚ) - n / d =
        (d * roundHalfEven n d - n) / d := by
    field_simp
  rw [hScaled, abs_div, abs_of_pos hDCast, div_le_iff₀ hDCast,
    abs_le]
  constructor <;> linarith

/- An integer that is less than a half away is the nearest. -/
theorem roundHalfEven_eq
    {n d c : Nat}
    (hD : 0 < d)
    (hNear : |(n : ℚ) / d - c| < 1 / 2) :
    roundHalfEven n d = c := by
  have hRound := abs_roundHalfEven_sub_le n hD
  have hLess : |((roundHalfEven n d : ℤ) - c : ℚ)| < 1 := by
    calc
      |((roundHalfEven n d : ℤ) - c : ℚ)|
          ≤ |(roundHalfEven n d : ℚ) - n / d| + |(n : ℚ) / d - c| := by
            push_cast
            exact abs_sub_le _ _ _
      _ < 1 := by linarith
  have hZero : (roundHalfEven n d : ℤ) - c = 0 := by
    rw [← Int.abs_lt_one_iff]
    exact_mod_cast hLess
  omega

------------------------------------------------------------
-- Powers
------------------------------------------------------------

theorem zpow_eq_div
    {b : Nat}
    (hB : 0 < b)
    (e : ℤ) :
    (b : ℚ) ^ e =
      ((b ^ e.toNat : ℕ) : ℚ) / ((b ^ (-e).toNat : ℕ) : ℚ) := by
  have hBase : (b : ℚ) ≠ 0 := by positivity
  push_cast
  rw [eq_div_iff (by positivity), ← zpow_natCast,
    ← zpow_natCast, ← zpow_add₀ hBase]
  congr 1
  omega

/-
  A number between powers that are two apart is told by the
  power between them.
-/
theorem between_powers
    {b r : ℚ}
    {guess : ℤ}
    (hLower : b ^ (guess - 1) ≤ r)
    (hUpper : r < b ^ (guess + 1)) :
    b ^ (if b ^ guess ≤ r then guess else guess - 1) ≤ r ∧
      r < b ^ ((if b ^ guess ≤ r then guess else guess - 1) + 1) := by
  by_cases hReaches : b ^ guess ≤ r
  · rw [if_pos hReaches]
    exact ⟨hReaches, hUpper⟩
  · rw [if_neg hReaches, sub_add_cancel]
    exact ⟨hLower, not_le.mp hReaches⟩

/-
  A quotient is between powers if its numerator and its
  denominator are.
-/
theorem quotient_between
    {b n d : ℚ}
    {k l : ℤ}
    (hB : 0 < b)
    (hD : 0 < d)
    (hN : b ^ k ≤ n)
    (hN' : n < b ^ (k + 1))
    (hD' : b ^ l ≤ d)
    (hD'' : d < b ^ (l + 1)) :
    b ^ (k - l - 1) ≤ n / d ∧ n / d < b ^ (k - l + 1) := by
  have hPower : ∀ e : ℤ, 0 < b ^ e := fun e => zpow_pos hB e
  constructor
  · rw [le_div_iff₀ hD]
    calc
      b ^ (k - l - 1) * d
          ≤ b ^ (k - l - 1) * b ^ (l + 1) :=
            mul_le_mul_of_nonneg_left hD''.le (hPower _).le
      _ = b ^ k := by
            rw [← zpow_add₀ hB.ne']
            congr 1
            ring
      _ ≤ n := hN
  · rw [div_lt_iff₀ hD]
    calc
      n < b ^ (k + 1) := hN'
      _ = b ^ (k - l + 1) * b ^ l := by
            rw [← zpow_add₀ hB.ne']
            congr 1
            ring
      _ ≤ b ^ (k - l + 1) * d :=
            mul_le_mul_of_nonneg_left hD' (hPower _).le

namespace Binary64

------------------------------------------------------------
-- Magnitudes
------------------------------------------------------------

/- The size of the number that a double stands for. -/
def magnitude
    (x : Binary64) : ℚ :=
  x.significand * 2 ^ x.exponent

theorem numerator_div_denominator
    (x : Binary64) :
    (x.numerator : ℚ) / x.denominator = x.magnitude := by
  have hPower := zpow_eq_div two_pos x.exponent
  unfold magnitude numerator denominator
  rw [twoTo_eq_pow, twoTo_eq_pow, Nat.cast_mul, mul_div_assoc,
    ← hPower]
  rfl

theorem denominator_pos
    (x : Binary64) :
    0 < x.denominator :=
  twoTo_pos _

------------------------------------------------------------
-- Exponents
------------------------------------------------------------

/-
  With this exponent the number has a significand of 53
  bits, or it has the least exponent and fewer bits.
-/
structure IsExponentOf
    (r : ℚ)
    (e : ℤ) : Prop where
  least : -1074 ≤ e
  below : r < 2 ^ (e + 53)
  above : e = -1074 ∨ 2 ^ (e + 52) ≤ r

/- There is only one such exponent. -/
theorem IsExponentOf.unique
    {r : ℚ}
    {e e' : ℤ}
    (hE : IsExponentOf r e)
    (hE' : IsExponentOf r e') :
    e = e' := by
  have hNotLess :
      ∀ {e e' : ℤ}, IsExponentOf r e → IsExponentOf r e' →
        e' ≤ e := by
    intro e e' hE hE'
    rcases hE'.above with hLeast | hAbove
    · have hBound := hE.least
      omega
    · have hPowers : (2 : ℚ) ^ (e' + 52) < 2 ^ (e + 53) :=
        lt_of_le_of_lt hAbove hE.below
      rw [zpow_lt_zpow_iff_right₀ one_lt_two] at hPowers
      omega
  exact le_antisymm (hNotLess hE' hE) (hNotLess hE hE')

theorem reachesPower_iff
    (n : Nat)
    {d : Nat}
    (hD : 0 < d)
    (e : ℤ) :
    reachesPower n d e = true ↔ (2 : ℚ) ^ e ≤ n / d := by
  have hDCast : (0 : ℚ) < d := by exact_mod_cast hD
  have hPower := zpow_eq_div two_pos e
  rw [Nat.cast_ofNat] at hPower
  unfold reachesPower
  rw [decide_eq_true_iff, twoTo_eq_pow, twoTo_eq_pow, hPower,
    div_le_div_iff₀ (by positivity) hDCast, mul_comm d]
  norm_cast

/- A number is between the powers of its logarithm. -/
theorem log2_between
    {n : Nat}
    (hN : 0 < n) :
    (2 : ℚ) ^ (Nat.log2 n : ℤ) ≤ n ∧
      (n : ℚ) < 2 ^ ((Nat.log2 n : ℤ) + 1) := by
  constructor
  · exact_mod_cast Nat.log2_self_le hN.ne'
  · exact_mod_cast Nat.lt_log2_self (n := n)

/- The exponent of a quotient is the right one. -/
theorem isExponentOf_exponentOf
    {n d : Nat}
    (hN : 0 < n)
    (hD : 0 < d) :
    IsExponentOf (n / d) (exponentOf n d) := by
  have hDCast : (0 : ℚ) < d := by exact_mod_cast hD
  rcases log2_between hN with ⟨hNLower, hNUpper⟩
  rcases log2_between hD with ⟨hDLower, hDUpper⟩
  rcases quotient_between two_pos hDCast hNLower hNUpper hDLower
    hDUpper with ⟨hLower, hUpper⟩
  have hTop := between_powers hLower hUpper
  unfold exponentOf
  simp only [reachesPower_iff n hD]
  generalize
    (if (2 : ℚ) ^ ((Nat.log2 n : ℤ) - Nat.log2 d) ≤ n / d then
        (Nat.log2 n : ℤ) - Nat.log2 d
      else (Nat.log2 n : ℤ) - Nat.log2 d - 1) = top at hTop
  refine ⟨le_max_left _ _, ?_, ?_⟩
  · refine lt_of_lt_of_le hTop.2 ?_
    rw [zpow_le_zpow_iff_right₀ one_lt_two]
    omega
  · rcases le_total (top - 52) (-1074) with hLeast | hNormal
    · exact .inl (max_eq_left hLeast)
    · rw [max_eq_right hNormal, sub_add_cancel]
      exact .inr hTop.1

------------------------------------------------------------
-- The Nearest Double
------------------------------------------------------------

/- The double nearest to a number that is not negative. -/
def nearest?
    (negative : Bool)
    (r : ℚ) : Option Binary64 :=
  ofRatio? negative r.num.natAbs r.den

theorem natAbs_num_div_den
    {r : ℚ}
    (hR : 0 ≤ r) :
    (r.num.natAbs : ℚ) / r.den = r := by
  have hNum : ((r.num.natAbs : ℤ) : ℚ) = r.num := by
    rw [Int.natAbs_of_nonneg (Rat.num_nonneg.mpr hR)]
  rw [← Int.cast_natCast, hNum]
  exact Rat.num_div_den r

theorem quotient_at
    {b : Nat}
    (hB : 0 < b)
    (n d : Nat)
    (e : ℤ) :
    ((n * b ^ (-e).toNat : ℕ) : ℚ) / ((d * b ^ e.toNat : ℕ) : ℚ) =
      n / d / (b : ℚ) ^ e := by
  rw [zpow_eq_div hB e, div_div_eq_mul_div, Nat.cast_mul,
    Nat.cast_mul, div_mul_eq_mul_div, div_div]

/- The quotient whose nearest integer is the significand. -/
theorem quotient_at_two
    (n d : Nat)
    (e : ℤ) :
    ((n * twoTo (-e).toNat : ℕ) : ℚ) / ((d * twoTo e.toNat : ℕ) : ℚ) =
      n / d / 2 ^ e := by
  exact_mod_cast quotient_at two_pos n d e

/- The nearest double depends on the quotient only. -/
theorem ofRatio?_congr
    (negative : Bool)
    {n d n' d' : Nat}
    (hD : 0 < d)
    (hD' : 0 < d')
    (hSame : (n : ℚ) / d = n' / d') :
    ofRatio? negative n d = ofRatio? negative n' d' := by
  have hZero : n = 0 ↔ n' = 0 := by
    rw [div_eq_div_iff (by positivity) (by positivity)] at hSame
    have hCross : n * d' = n' * d := by exact_mod_cast hSame
    constructor
    · rintro rfl
      rw [Nat.zero_mul] at hCross
      exact (Nat.mul_eq_zero.mp hCross.symm).resolve_right hD.ne'
    · rintro rfl
      rw [Nat.zero_mul] at hCross
      exact (Nat.mul_eq_zero.mp hCross).resolve_right hD'.ne'
  unfold ofRatio?
  by_cases hN : n = 0
  · rw [if_pos hN, if_pos (hZero.mp hN)]
  · have hN' : n' ≠ 0 := fun hEq => hN (hZero.mpr hEq)
    have hExponent : exponentOf n d = exponentOf n' d' := by
      have hLeft :=
        isExponentOf_exponentOf (Nat.pos_of_ne_zero hN) hD
      have hRight :=
        isExponentOf_exponentOf (Nat.pos_of_ne_zero hN') hD'
      rw [hSame] at hLeft
      exact hLeft.unique hRight
    have hSignificand :
        ∀ e : ℤ,
          roundHalfEven (n * twoTo (-e).toNat) (d * twoTo e.toNat) =
            roundHalfEven (n' * twoTo (-e).toNat)
              (d' * twoTo e.toNat) := by
      intro e
      refine roundHalfEven_congr ?_ ?_ ?_
      · exact Nat.mul_pos hD (twoTo_pos _)
      · exact Nat.mul_pos hD' (twoTo_pos _)
      · rw [quotient_at_two, quotient_at_two, hSame]
    rw [if_neg hN, if_neg hN', hExponent]
    dsimp only
    rw [hSignificand]

/- A quotient is rounded as the number that it is. -/
theorem ofRatio?_eq_nearest?
    (negative : Bool)
    (n : Nat)
    {d : Nat}
    (hD : 0 < d) :
    ofRatio? negative n d = nearest? negative (n / d) := by
  refine ofRatio?_congr negative hD (Rat.den_pos _) ?_
  exact (natAbs_num_div_den (by positivity)).symm

theorem nearest?_zero
    (negative : Bool) :
    nearest? negative 0 = some (zero negative) :=
  rfl

theorem nearest?_eq_map
    (negative : Bool)
    (r : ℚ) :
    nearest? negative r =
      (nearest? false r).map (·.withSign negative) := by
  unfold nearest? ofRatio?
  dsimp only
  split
  · rfl
  · split
    · split <;> rfl
    · split <;> rfl

/- The nearest double has the sign that is asked for. -/
theorem negative_of_nearest?
    {negative : Bool}
    {r : ℚ}
    {x : Binary64}
    (hX : nearest? negative r = some x) :
    x.negative = negative := by
  rw [nearest?_eq_map, Option.map_eq_some_iff] at hX
  rcases hX with ⟨y, -, rfl⟩
  rfl

theorem mul?_eq
    (x y : Binary64) :
    x.mul? y =
      nearest? (x.negative != y.negative)
        (x.magnitude * y.magnitude) := by
  have hPos : 0 < x.denominator * y.denominator :=
    Nat.mul_pos x.denominator_pos y.denominator_pos
  unfold mul?
  rw [ofRatio?_eq_nearest? _ _ hPos, Nat.cast_mul, Nat.cast_mul,
    mul_div_mul_comm, numerator_div_denominator,
    numerator_div_denominator]

theorem div?_eq
    (x : Binary64)
    {y : Binary64}
    (hY : 0 < y.magnitude) :
    x.div? y =
      nearest? (x.negative != y.negative)
        (x.magnitude / y.magnitude) := by
  have hNumerator : 0 < y.numerator := by
    have hQuotient := y.numerator_div_denominator
    by_contra hNot
    have hZero : y.numerator = 0 := by omega
    rw [hZero, Nat.cast_zero, zero_div] at hQuotient
    exact hY.ne hQuotient
  have hPos : 0 < x.denominator * y.numerator :=
    Nat.mul_pos x.denominator_pos hNumerator
  unfold div?
  rw [ofRatio?_eq_nearest? _ _ hPos, Nat.cast_mul, Nat.cast_mul,
    ← x.numerator_div_denominator,
    ← y.numerator_div_denominator, div_div_div_eq]

------------------------------------------------------------
-- How Near It Is
------------------------------------------------------------

/-
  The nearest double is a multiple of a power of two, at
  most half of that power away.
-/
theorem exists_significand
    {negative : Bool}
    {r : ℚ}
    (hR : 0 < r)
    {x : Binary64}
    (hX : nearest? negative r = some x) :
    ∃ e : ℤ, ∃ q : ℕ,
      IsExponentOf r e ∧ x.magnitude = q * 2 ^ e ∧
        |(q : ℚ) - r / 2 ^ e| ≤ 1 / 2 := by
  have hNum : 0 < r.num.natAbs :=
    Int.natAbs_pos.mpr (Rat.num_pos.mpr hR).ne'
  have hExponent := isExponentOf_exponentOf hNum r.den_pos
  have hRound :=
    abs_roundHalfEven_sub_le
      (r.num.natAbs * twoTo (-(exponentOf r.num.natAbs r.den)).toNat)
      (Nat.mul_pos r.den_pos
        (twoTo_pos (exponentOf r.num.natAbs r.den).toNat))
  rw [quotient_at_two, natAbs_num_div_den hR.le] at hRound
  rw [natAbs_num_div_den hR.le] at hExponent
  unfold nearest? ofRatio? at hX
  rw [if_neg hNum.ne'] at hX
  simp only [Option.ite_none_left_eq_some, Option.some.injEq] at hX
  rcases hX with ⟨-, rfl⟩
  refine ⟨_, _, hExponent, ?_, hRound⟩
  split
  · rename_i hFull
    unfold magnitude
    rw [hFull, twoTo_eq_pow, twoTo_eq_pow,
      zpow_add_one₀ two_ne_zero]
    push_cast
    ring
  · rfl

/- Numbers that are not too large have a nearest double. -/
theorem exists_nearest?
    (negative : Bool)
    {r : ℚ}
    (hR : 0 ≤ r)
    (hSmall : r < 2 ^ (1023 : ℤ)) :
    ∃ x, nearest? negative r = some x := by
  rcases hR.eq_or_lt with rfl | hPos
  · exact ⟨_, nearest?_zero negative⟩
  · have hNum : 0 < r.num.natAbs :=
      Int.natAbs_pos.mpr (Rat.num_pos.mpr hPos).ne'
    have hExponent := isExponentOf_exponentOf hNum r.den_pos
    rw [natAbs_num_div_den hR] at hExponent
    have hBound : exponentOf r.num.natAbs r.den ≤ 970 := by
      rcases hExponent.above with hLeast | hAbove
      · omega
      · have hPowers := lt_of_le_of_lt hAbove hSmall
        rw [zpow_lt_zpow_iff_right₀ one_lt_two] at hPowers
        omega
    unfold nearest? ofRatio?
    rw [if_neg hNum.ne']
    dsimp only
    refine ⟨_, if_neg ?_⟩
    split <;> dsimp only <;> omega

/-
  The nearest double is off by at most one part in `2 ^ 53`,
  unless the number is very small.
-/
theorem abs_magnitude_sub_le
    {negative : Bool}
    {r : ℚ}
    (hR : 2 ^ (-1022 : ℤ) ≤ r)
    {x : Binary64}
    (hX : nearest? negative r = some x) :
    |x.magnitude - r| ≤ r / 2 ^ 53 := by
  have hPos : 0 < r := lt_of_lt_of_le (zpow_pos two_pos _) hR
  rcases exists_significand hPos hX with
    ⟨e, q, hExponent, hMagnitude, hNear⟩
  have hTwo : (0 : ℚ) < 2 ^ e := by positivity
  have hScaled :
      x.magnitude - r = (q - r / 2 ^ e) * 2 ^ e := by
    rw [hMagnitude]
    field_simp
  have hBits : (2 : ℚ) ^ e * 2 ^ 52 ≤ r := by
    have hNormal : (2 : ℚ) ^ (e + 52) ≤ r := by
      rcases hExponent.above with rfl | hAbove
      · rw [show (-1074 : ℤ) + 52 = -1022 by decide]
        exact hR
      · exact hAbove
    rw [zpow_add₀ two_ne_zero] at hNormal
    exact hNormal
  rw [hScaled, abs_mul, abs_of_pos hTwo, le_div_iff₀ (by positivity)]
  calc
    |(q : ℚ) - r / 2 ^ e| * 2 ^ e * 2 ^ 53
        ≤ 1 / 2 * 2 ^ e * 2 ^ 53 := by gcongr
    _ = 2 ^ e * 2 ^ 52 := by ring
    _ ≤ r := hBits

/-
  A multiple of a power of two with at most 53 bits is a
  double itself.
-/
theorem exists_nearest?_exact
    (negative : Bool)
    {m : Nat}
    (hM : m < 2 ^ 53)
    {j : ℤ}
    (hJ : -1074 ≤ j)
    (hJ' : j ≤ 970) :
    ∃ x, nearest? negative (m * 2 ^ j) = some x ∧
      x.magnitude = m * 2 ^ j := by
  have hTwo : ∀ e : ℤ, (0 : ℚ) < 2 ^ e := fun e => by positivity
  have hMCast : (m : ℚ) < 2 ^ (53 : ℤ) := by exact_mod_cast hM
  have hLess : (m : ℚ) * 2 ^ j < 2 ^ (j + 53) := by
    rw [zpow_add₀ two_ne_zero, mul_comm]
    exact mul_lt_mul_of_pos_left hMCast (hTwo j)
  have hSmall : (m : ℚ) * 2 ^ j < 2 ^ (1023 : ℤ) := by
    refine lt_of_lt_of_le hLess ?_
    rw [zpow_le_zpow_iff_right₀ one_lt_two]
    omega
  have hNonneg : (0 : ℚ) ≤ m * 2 ^ j :=
    mul_nonneg (Nat.cast_nonneg m) (hTwo j).le
  rcases exists_nearest? negative hNonneg hSmall with ⟨x, hX⟩
  refine ⟨x, hX, ?_⟩
  rcases Nat.eq_zero_or_pos m with rfl | hPos
  · rw [Nat.cast_zero, zero_mul] at hX ⊢
    rw [nearest?_zero] at hX
    cases hX
    simp [magnitude, zero]
  · have hR : 0 < (m : ℚ) * 2 ^ j :=
      mul_pos (by exact_mod_cast hPos) (hTwo j)
    rcases exists_significand hR hX with
      ⟨e, q, hExponent, hMagnitude, hNear⟩
    -- The power that is rounded to divides the number.
    have hFine : e ≤ j := by
      rcases hExponent.above with hLeast | hAbove
      · omega
      · have hPowers := lt_of_le_of_lt hAbove hLess
        rw [zpow_lt_zpow_iff_right₀ one_lt_two] at hPowers
        omega
    rcases Int.eq_ofNat_of_zero_le (sub_nonneg.mpr hFine) with
      ⟨k, hK⟩
    have hMultiple : (m : ℚ) * 2 ^ j / 2 ^ e = (m * 2 ^ k : ℕ) := by
      have hSplit : j = k + e := by omega
      rw [hSplit, zpow_add₀ two_ne_zero, zpow_natCast]
      push_cast
      field_simp
    rw [hMultiple] at hNear
    have hSame : (q : ℤ) - (m * 2 ^ k : ℕ) = 0 := by
      rw [← Int.abs_lt_one_iff]
      have hLessOne : |(q : ℚ) - (m * 2 ^ k : ℕ)| < 1 :=
        lt_of_le_of_lt hNear (by norm_num)
      exact_mod_cast hLessOne
    have hQ : q = m * 2 ^ k := by omega
    rw [hMagnitude, hQ, ← hMultiple]
    field_simp

end Binary64

end OrderDesk
