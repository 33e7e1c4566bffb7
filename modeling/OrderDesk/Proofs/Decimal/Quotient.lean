import OrderDesk.Proofs.Decimal.Arithmetic

/-
  This file proves when a quotient of decimals exists: it
  does unless the exact quotient would be rounded to an
  integer with more than 96 bits. The digits are developed
  in steps, and every step either finishes the quotient or
  leaves one that overflows just as the first one does.

  Key definitions include:
    * `Decimal.Quotient.Overflows`
    * `Decimal.Quotient.Settles`

  Key theorems include:
    * `Decimal.Quotient.overflows_shift`
    * `Decimal.Quotient.settles_develop?`
    * `Decimal.div?_eq_none_iff`
-/

namespace OrderDesk

namespace Decimal

namespace Quotient

------------------------------------------------------------
-- Overflow
------------------------------------------------------------

/-
  The quotient `n / d / 10 ^ s` is at least half a unit
  above the largest coefficient, so that it is rounded to a
  larger one: the tie goes to the even neighbour above.
-/
def Overflows
    (d n : Nat)
    (s : Int) : Prop :=
  (2 ^ 97 - 1) * ((d : ℚ) * 10 ^ s) ≤ 2 * n

variable {d n q r : Nat} {s : Int}

/- More digits at a larger scale make the same quotient. -/
theorem overflows_shift
    (d n : Nat)
    (s : Int)
    (p : Nat) :
    Overflows d (n * 10 ^ p) (s + p) ↔ Overflows d n s := by
  have hTen : (0 : ℚ) < 10 ^ p := by positivity
  unfold Overflows
  rw [zpow_add₀ (by norm_num), zpow_natCast]
  push_cast
  constructor
  · intro hLe
    refine le_of_mul_le_mul_right ?_ hTen
    linarith
  · intro hLe
    have hScaled := mul_le_mul_of_nonneg_right hLe hTen.le
    linarith

/- At a scale before or at the point, the digits decide alone. -/
theorem overflows_of_le
    (hScale : s ≤ 0)
    (hLarge : (2 ^ 97 - 1) * d ≤ 2 * n) :
    Overflows d n s := by
  have hPower : (10 : ℚ) ^ s ≤ 1 :=
    zpow_le_one_of_nonpos₀ (by norm_num) hScale
  have hCast : ((2 ^ 97 - 1) * d : ℚ) ≤ 2 * n := by
    have hNat := Nat.cast_le (α := ℚ) |>.mpr hLarge
    push_cast at hNat
    norm_num at hNat ⊢
    exact hNat
  have hD : (0 : ℚ) ≤ d := Nat.cast_nonneg d
  unfold Overflows
  calc
    (2 ^ 97 - 1 : ℚ) * ((d : ℚ) * 10 ^ s)
        ≤ (2 ^ 97 - 1) * ((d : ℚ) * 1) := by
          gcongr
    _ = (2 ^ 97 - 1) * d := by ring
    _ ≤ 2 * n := hCast

/- Digits after the point make the quotient smaller. -/
theorem not_overflows_of_lt
    {e : Nat}
    (hScale : (e : Int) ≤ s)
    (hSmall : 2 * n < 10 ^ e * ((2 ^ 97 - 1) * d)) :
    ¬ Overflows d n s := by
  have hPower : (10 : ℚ) ^ e ≤ 10 ^ s := by
    rw [← zpow_natCast]
    exact zpow_le_zpow_right₀ (by norm_num) hScale
  have hCast : (2 * n : ℚ) < 10 ^ e * ((2 ^ 97 - 1) * d) := by
    have hNat := Nat.cast_lt (α := ℚ) |>.mpr hSmall
    push_cast at hNat
    norm_num at hNat ⊢
    exact hNat
  have hD : (0 : ℚ) ≤ d := Nat.cast_nonneg d
  unfold Overflows
  rw [not_le]
  calc
    (2 * n : ℚ) < 10 ^ e * ((2 ^ 97 - 1) * d) := hCast
    _ = (2 ^ 97 - 1) * ((d : ℚ) * 10 ^ e) := by ring
    _ ≤ (2 ^ 97 - 1) * ((d : ℚ) * 10 ^ s) := by gcongr

------------------------------------------------------------
-- Single Steps
------------------------------------------------------------

/-
  What becomes of the quotient `n / d / 10 ^ s`: nothing if
  it overflows, and otherwise digits that are in range.
-/
def Settles
    (d n : Nat)
    (s : Int) :
    Option Quotient → Prop
| none => Overflows d n s
| some t =>
    ¬ Overflows d n s ∧
      t.digits < 2 ^ 96 ∧ 0 ≤ t.scale ∧ t.scale ≤ 28

/-
  A coefficient that is too long loses a digit, if there is
  one after the point.
-/
theorem settles_dropDigit?
    {digits : Nat}
    (sticky inexact : Bool)
    (hScale : s ≤ 28)
    (hDigits : digits / 10 + 1 < 2 ^ 96)
    (hLower : (2 ^ 97 - 1) * d ≤ 2 * n)
    (hUpper : 2 * n < 10 * ((2 ^ 97 - 1) * d)) :
    Settles d n s (dropDigit? digits s sticky inexact) := by
  unfold dropDigit?
  dsimp only
  by_cases hPoint : s < 1
  · rw [if_pos hPoint]
    exact overflows_of_le (by omega) hLower
  · rw [if_neg hPoint]
    have hFits : ¬ Overflows d n s :=
      not_overflows_of_lt (e := 1) (by omega) (by omega)
    split
    · exact ⟨hFits, hDigits, by dsimp only; omega,
        by dsimp only; omega⟩
    · exact ⟨hFits, by dsimp only; omega, by dsimp only; omega,
        by dsimp only; omega⟩

/- The last digit is rounded on the remainder. -/
theorem settles_roundOff?
    (hRest : r < d)
    (hDigits : q < 2 ^ 96)
    (hPoint : 0 ≤ s)
    (hScale : s ≤ 28) :
    Settles d (q * d + r) s (roundOff? d q r s) := by
  have hBound : (q + 1) * d ≤ 2 ^ 96 * d :=
    Nat.mul_le_mul_right d hDigits
  rw [Nat.add_mul, Nat.one_mul] at hBound
  unfold roundOff?
  by_cases hDown : 2 * r < d ∨ (2 * r = d ∧ q % 2 = 0)
  · rw [if_pos hDown]
    refine ⟨?_, hDigits, hPoint, hScale⟩
    apply not_overflows_of_lt (e := 0) hPoint
    rcases hDown with hLess | ⟨hTie, hEven⟩
    · omega
    · have hEvenBound : (q + 2) * d ≤ 2 ^ 96 * d :=
        Nat.mul_le_mul_right d (by omega)
      rw [Nat.add_mul] at hEvenBound
      omega
  · rw [if_neg hDown]
    by_cases hFull : q + 1 = twoTo 96
    · rw [if_pos hFull]
      rw [twoTo_eq_pow] at hFull
      have hExact : (q + 1) * d = 2 ^ 96 * d := by rw [hFull]
      rw [Nat.add_mul, Nat.one_mul] at hExact
      exact settles_dropDigit? true true hScale (by omega)
        (by omega) (by omega)
    · rw [if_neg hFull]
      rw [twoTo_eq_pow] at hFull
      refine ⟨?_, by dsimp only; omega, hPoint, hScale⟩
      apply not_overflows_of_lt (e := 0) hPoint
      have hRoom : (q + 2) * d ≤ 2 ^ 96 * d :=
        Nat.mul_le_mul_right d (by omega)
      rw [Nat.add_mul] at hRoom
      omega

------------------------------------------------------------
-- Appended Digits
------------------------------------------------------------

/- As many digits as are appended have room. -/
theorem mul_tenTo_room_lt
    (limit : Nat)
    (hPos : room q limit ≠ 0) :
    q * tenTo (room q limit) < twoTo 96 := by
  induction limit with
  | zero => exact absurd rfl hPos
  | succ limit ih =>
      unfold room at hPos ⊢
      split
      · assumption
      · rename_i hFull
        rw [if_neg hFull] at hPos
        exact ih hPos

/- There is no room for more digits than are appended. -/
theorem twoTo_le_mul_tenTo_room_succ
    (limit : Nat)
    (hLess : room q limit < limit) :
    twoTo 96 ≤ q * tenTo (room q limit + 1) := by
  induction limit with
  | zero => omega
  | succ limit ih =>
      unfold room at hLess ⊢
      split
      · rename_i hRoom
        rw [if_pos hRoom] at hLess
        omega
      · rename_i hFull
        have hLe := room_le q limit
        rcases Nat.lt_or_ge (room q limit) limit with hLt | hGe
        · exact ih hLt
        · have hEq : room q limit = limit := by omega
          rw [hEq]
          omega

theorem appended_le_nine
    (q r : Nat)
    (s : Int) :
    appended q r s ≤ 9 := by
  unfold appended
  split
  · omega
  · have hLe := room_le q (min 9 (28 - s).toNat)
    omega

/- A step carries digits and remainder over to the larger scale. -/
theorem step_mul_add
    (d q r p : Nat) :
    (q * tenTo p + r * tenTo p / d) * d + r * tenTo p % d =
      (q * d + r) * 10 ^ p := by
  have hDivide := Nat.div_add_mod' (r * tenTo p) d
  rw [tenTo_eq_pow] at hDivide ⊢
  calc
    (q * 10 ^ p + r * 10 ^ p / d) * d + r * 10 ^ p % d
        = q * 10 ^ p * d +
            (r * 10 ^ p / d * d + r * 10 ^ p % d) := by ring
    _ = (q * d + r) * 10 ^ p := by
          rw [hDivide]
          ring

------------------------------------------------------------
-- Whole Quotients
------------------------------------------------------------

/- The quotient of `n` is the one that a step carries it over to. -/
theorem settles_shift
    {p : Nat}
    {result : Option Quotient}
    (hSettles : Settles d (n * 10 ^ p) (s + p) result) :
    Settles d n s result := by
  cases result with
  | none => exact (overflows_shift d n s p).mp hSettles
  | some t =>
      refine ⟨?_, hSettles.2⟩
      rw [← overflows_shift d n s p]
      exact hSettles.1

/-
  A quotient overflows if it has no room for the digits that
  bring it back to the point.
-/
theorem overflows_of_full
    {p : Nat}
    (hScale : s + p ≤ 0)
    (hFull : 2 ^ 96 ≤ q * 10 ^ p) :
    Overflows d (q * d + r) s := by
  rw [← overflows_shift d _ s p]
  apply overflows_of_le hScale
  have hBound : 2 ^ 96 * d ≤ q * 10 ^ p * d :=
    Nat.mul_le_mul_right d hFull
  calc
    (2 ^ 97 - 1) * d ≤ 2 * (2 ^ 96 * d) := by omega
    _ ≤ 2 * (q * 10 ^ p * d) := by omega
    _ ≤ 2 * ((q * d + r) * 10 ^ p) := by
          apply Nat.mul_le_mul_left
          calc
            q * 10 ^ p * d = q * d * 10 ^ p := by ring
            _ ≤ (q * d + r) * 10 ^ p :=
                  Nat.mul_le_mul_right _ (Nat.le_add_right _ _)

/-
  Developing a quotient settles it. The induction is on the
  steps, each of which carries the quotient over to a larger
  scale.
-/
theorem settles_develop?
    (inexact : Bool)
    (hRest : r < d)
    (hDigits : q < 2 ^ 96)
    (hScale : s ≤ 28) :
    Settles d (q * d + r) s (develop? d q r s inexact) := by
  fun_induction develop? d q r s inexact with
  | case1 q r s inexact hExact =>
      refine ⟨?_, hDigits, hExact.2, hScale⟩
      apply not_overflows_of_lt (e := 0) hExact.2
      have hBound : (q + 1) * d ≤ 2 ^ 96 * d :=
        Nat.mul_le_mul_right d hDigits
      rw [Nat.add_mul, Nat.one_mul] at hBound
      omega
  | case2 q r s inexact hOpen p hFar =>
      rcases hFar with ⟨hNe, hNine, hBefore⟩
      have hP : p = room q (min 9 (28 - s).toNat) := by
        simp only [p, appended, if_neg hNe]
      have hFull := twoTo_le_mul_tenTo_room_succ
        (q := q) (min 9 (28 - s).toNat) (by omega)
      rw [← hP, twoTo_eq_pow, tenTo_eq_pow] at hFull
      exact overflows_of_full (p := p + 1) (by omega) hFull
  | case3 q r s inexact hOpen p hNear hZero =>
      have hNe : r ≠ 0 := by
        intro hR
        simp only [p, appended, if_pos hR] at hZero
        omega
      exact settles_roundOff? hRest hDigits (by omega) hScale
  | case4 q r s inexact hOpen p hNear hPos hFull =>
      rw [twoTo_eq_pow, tenTo_eq_pow] at hFull
      by_cases hR : r = 0
      · have hP : p = min 9 (-s).toNat := by
          simp only [p, appended, if_pos hR]
        exact overflows_of_full (p := p) (by omega) hFull
      · have hP : p = room q (min 9 (28 - s).toNat) := by
          simp only [p, appended, if_neg hR]
        have hRoom := mul_tenTo_room_lt
          (q := q) (min 9 (28 - s).toNat) (by omega)
        rw [← hP, twoTo_eq_pow, tenTo_eq_pow] at hRoom
        omega
  | case5 q r s inexact hOpen p hNear hPos hRoom q' r' hLong =>
      rw [twoTo_eq_pow] at hLong hRoom
      have hP : p ≤ (28 - s).toNat := appended_le q r s
      have hTen : tenTo p ≤ 10 ^ 9 := by
        rw [tenTo_eq_pow]
        exact Nat.pow_le_pow_right (by omega)
          (appended_le_nine q r s)
      have hRest' : r' < d := Nat.mod_lt _ (by omega)
      have hAdded : r * tenTo p / d < tenTo p := by
        apply Nat.div_lt_of_lt_mul
        exact Nat.mul_lt_mul_of_pos_right hRest (tenTo_pos p)
      have hQ' : q' = q * tenTo p + r * tenTo p / d := rfl
      have hCarried : q' * d + r' = (q * d + r) * 10 ^ p :=
        step_mul_add d q r p
      have hUpper : (q' + 1) * d ≤ (2 ^ 96 + 10 ^ 9) * d :=
        Nat.mul_le_mul_right d (by omega)
      have hLower : 2 ^ 96 * d ≤ q' * d :=
        Nat.mul_le_mul_right d hLong
      rw [Nat.add_mul, Nat.one_mul] at hUpper
      apply settles_shift (p := p)
      rw [← hCarried]
      exact settles_dropDigit? _ _ (by omega) (by omega)
        (by omega) (by omega)
  | case6 q r s inexact hOpen p hNear hPos hRoom q' r' hShort ih =>
      rw [twoTo_eq_pow] at hShort
      have hP : p ≤ (28 - s).toNat := appended_le q r s
      have hRest' : r' < d := Nat.mod_lt _ (by omega)
      apply settles_shift (p := p)
      rw [← step_mul_add d q r p]
      exact ih hRest' (by omega) (by omega)

------------------------------------------------------------
-- Appended Zeros
------------------------------------------------------------

theorem takeBack_bounds
    (k : Nat)
    (t : Quotient)
    (hPoint : 0 ≤ t.scale) :
    (t.takeBack k).digits ≤ t.digits ∧
      0 ≤ (t.takeBack k).scale ∧
        (t.takeBack k).scale ≤ t.scale := by
  unfold takeBack
  split
  · exact ⟨Nat.div_le_self _ _, by dsimp only; omega,
      by dsimp only; omega⟩
  · exact ⟨Nat.le_refl _, hPoint, Int.le_refl _⟩

theorem takeBackEights_bounds
    (t : Quotient)
    (hPoint : 0 ≤ t.scale) :
    (takeBackEights t).digits ≤ t.digits ∧
      0 ≤ (takeBackEights t).scale ∧
        (takeBackEights t).scale ≤ t.scale := by
  fun_induction takeBackEights t with
  | case1 t hZeros ih =>
      have hLess := Nat.div_le_self t.digits (tenTo 8)
      have hRest := ih (by dsimp only; omega)
      dsimp only at hRest
      exact ⟨by omega, hRest.2.1, by omega⟩
  | case2 t hZeros =>
      exact ⟨Nat.le_refl _, hPoint, Int.le_refl _⟩

/- Trimming keeps a quotient in range. -/
theorem trim_bounds
    (t : Quotient)
    (hPoint : 0 ≤ t.scale) :
    t.trim.digits ≤ t.digits ∧
      0 ≤ t.trim.scale ∧ t.trim.scale ≤ t.scale := by
  unfold trim
  split
  · have hEights := takeBackEights_bounds t hPoint
    have hFour :=
      takeBack_bounds 4 (takeBackEights t) hEights.2.1
    have hTwo := takeBack_bounds 2 _ hFour.2.1
    have hOne := takeBack_bounds 1 _ hTwo.2.1
    exact ⟨by omega, hOne.2.1, by omega⟩
  · exact ⟨Nat.le_refl _, hPoint, Int.le_refl _⟩

end Quotient

------------------------------------------------------------
-- Quotients Of Decimals
------------------------------------------------------------

/- Parts that are in range are those of a decimal. -/
theorem exists_ofParts?_eq_some
    (coefficient scale : Int)
    (hCoefficient : coefficient.natAbs < 2 ^ 96)
    (hPoint : 0 ≤ scale)
    (hScale : scale ≤ 28) :
    ∃ a, ofParts? coefficient scale = some a := by
  unfold ofParts?
  rw [dif_pos ⟨hCoefficient, hPoint, hScale⟩]
  exact ⟨_, rfl⟩

theorem overflows_iff
    (a b : Decimal) :
    Quotient.Overflows b.coefficient.natAbs a.coefficient.natAbs
        ((a.scale : Int) - b.scale) ↔
      (2 ^ 97 - 1) * |b.value| ≤ 2 * |a.value| := by
  have hA : (0 : ℚ) < 10 ^ a.scale := by positivity
  have hB : (0 : ℚ) < 10 ^ b.scale := by positivity
  unfold Quotient.Overflows
  rw [zpow_sub₀ (by norm_num), zpow_natCast, zpow_natCast,
    a.abs_value, b.abs_value]
  rw [← mul_le_mul_iff_left₀ (by positivity : (0 : ℚ) < 1 / 10 ^ a.scale)]
  constructor
  · intro hLe
    calc
      (2 ^ 97 - 1 : ℚ) * (b.coefficient.natAbs / 10 ^ b.scale)
          = (2 ^ 97 - 1) * (b.coefficient.natAbs *
              (10 ^ a.scale / 10 ^ b.scale)) * (1 / 10 ^ a.scale) := by
            field_simp
      _ ≤ 2 * a.coefficient.natAbs * (1 / 10 ^ a.scale) := hLe
      _ = 2 * (a.coefficient.natAbs / 10 ^ a.scale) := by ring
  · intro hLe
    calc
      (2 ^ 97 - 1 : ℚ) * (b.coefficient.natAbs *
              (10 ^ a.scale / 10 ^ b.scale)) * (1 / 10 ^ a.scale)
          = (2 ^ 97 - 1) *
              (b.coefficient.natAbs / 10 ^ b.scale) := by
            field_simp
      _ ≤ 2 * (a.coefficient.natAbs / 10 ^ a.scale) := hLe
      _ = 2 * a.coefficient.natAbs * (1 / 10 ^ a.scale) := by ring

/-
  A quotient by something else than zero fails to exist if
  and only if the exact quotient is at least half a unit
  above the largest coefficient.
-/
theorem div?_eq_none_iff
    {a b : Decimal}
    (hB : b.value ≠ 0) :
    a.div? b = none ↔
      (2 ^ 97 - 1) * |b.value| ≤ 2 * |a.value| := by
  have hDivisor : ¬ b.IsZero := by
    rw [isZero_iff_value_eq_zero]
    exact hB
  unfold div?
  rw [if_neg hDivisor]
  by_cases hA : a.IsZero
  · rw [if_pos hA]
    rw [isZero_iff_value_eq_zero] at hA
    have hSize : 0 < |b.value| := abs_pos.mpr hB
    simp only [reduceCtorEq, false_iff, hA, abs_zero, mul_zero]
    rw [not_le]
    positivity
  · rw [if_neg hA]
    have hPos : 0 < b.coefficient.natAbs :=
      Int.natAbs_pos.mpr hDivisor
    have hDigits :=
      Nat.div_le_self a.coefficient.natAbs b.coefficient.natAbs
    have hSize := a.natAbs_coefficient_le
    have hSettles :=
      Quotient.settles_develop? (s := (a.scale : Int) - b.scale)
        false (Nat.mod_lt a.coefficient.natAbs hPos)
        (by omega : a.coefficient.natAbs / b.coefficient.natAbs <
          2 ^ 96)
        (by have := a.scale_le; omega)
    rw [Nat.div_add_mod'] at hSettles
    rw [← overflows_iff]
    cases hDevelop :
        Quotient.develop? b.coefficient.natAbs
          (a.coefficient.natAbs / b.coefficient.natAbs)
          (a.coefficient.natAbs % b.coefficient.natAbs)
          ((a.scale : Int) - b.scale) false with
    | none =>
        rw [hDevelop] at hSettles
        dsimp only
        rw [hDevelop]
        exact ⟨fun _ => hSettles, fun _ => rfl⟩
    | some t =>
        rw [hDevelop] at hSettles
        rcases hSettles with ⟨hFits, hT, hPoint, hScale⟩
        have hTrim := Quotient.trim_bounds t hPoint
        rcases exists_ofParts?_eq_some
            (a.coefficient.sign * b.coefficient.sign *
              t.trim.digits)
            t.trim.scale
            (by
              rw [Int.natAbs_mul, Int.natAbs_mul,
                Int.natAbs_sign_of_ne_zero hA,
                Int.natAbs_sign_of_ne_zero hDivisor,
                Int.natAbs_natCast]
              omega)
            hTrim.2.1 (by omega) with
          ⟨c, hParts⟩
        dsimp only
        rw [hDevelop]
        simp only [Option.bind_some, hParts, reduceCtorEq,
          false_iff]
        exact hFits

end Decimal

end OrderDesk
