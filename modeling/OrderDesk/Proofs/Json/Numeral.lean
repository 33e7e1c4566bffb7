import OrderDesk.Proofs.Binary64.Shortest
import OrderDesk.Proofs.Json.Token

/-
  This file proves that the numeral of a double is one that
  JSON has, and that it is taken for the double again if the
  double stands for a decimal with at most 15 digits and at
  most 22 places.

  A numeral is taken for its digits, as an integer, divided
  by a power of ten. Both are doubles themselves as long as
  they are not too large, so only the division rounds.

  Key theorems include:
    * `Numeral.isProper_ofBinary64`
    * `Numeral.number?_of_quotient`
    * `Numeral.number?_ofBinary64`
-/

namespace OrderDesk

namespace Numeral

open Binary64

------------------------------------------------------------
-- Numerals Are Proper
------------------------------------------------------------

theorem isProper_exponent
    (negative : Bool)
    {ds : List Char}
    (hDigits : IsDigits ds)
    (hSome : ds ≠ [])
    (sign : ExponentSign)
    (e : Nat) :
    IsProper
      ⟨negative, ds.take 1, ds.drop 1, some (sign, digitChars e)⟩ where
  whole := fun c hMem => hDigits c (List.mem_of_mem_take hMem)
  nonempty := by
    cases ds with
    | nil => contradiction
    | cons d ds => exact nofun
  leading := by
    cases ds with
    | nil => exact nofun
    | cons d ds =>
        intro hZero
        rw [Option.some.inj hZero]
        rfl
  fraction := fun c hMem => hDigits c (List.mem_of_mem_drop hMem)
  exponent := by
    rintro _ _ ⟨⟩
    exact ⟨isDigits_digitChars e, digitChars_ne_nil e⟩

theorem isProper_positional
    (negative : Bool)
    {whole fraction : List Char}
    (hWhole : IsDigits whole)
    (hSome : whole ≠ [])
    (hLeading : whole.head? = some '0' → whole = ['0'])
    (hFraction : IsDigits fraction) :
    IsProper
      ⟨negative, whole,
        if fraction.isEmpty then ['0'] else fraction, none⟩ where
  whole := hWhole
  nonempty := hSome
  leading := hLeading
  fraction := by
    dsimp only
    split
    · exact isDigits_zeros 1
    · exact hFraction
  exponent := nofun

/- Positional notation does not begin with needless zeros. -/
theorem leading_positional
    {m : Nat}
    (hM : ¬ 10 ∣ m)
    (w : ℤ)
    {whole fraction : List Char}
    (hSplit : (shortestOf m w).positional = (whole, fraction)) :
    whole.head? = some '0' → whole = ['0'] := by
  have hHead := head?_digitChars_ne (pos_of_not_dvd hM)
  have hSome := digitChars_ne_nil m
  rw [shortestOf_of_not_dvd hM] at hSplit
  unfold Shortest.positional at hSplit
  dsimp only at hSplit
  split at hSplit
  · cases hSplit
    exact fun _ => rfl
  · cases hSplit
    intro hZero
    cases hDigits : digitChars m with
    | nil => contradiction
    | cons d ds =>
        rw [hDigits] at hHead hZero
        exact absurd hZero hHead

/- The numeral of a double is proper. -/
theorem isProper_ofBinary64
    (x : Binary64) :
    (ofBinary64 x).IsProper := by
  unfold ofBinary64
  dsimp only
  rcases x.shortest_cases with hZero | hNone | ⟨m, w, hM, hSome⟩
  · rw [hZero]
    exact
      isProper_positional _ (isDigits_zeros 1) nofun
        (fun _ => rfl) nofun
  · rw [hNone]
    exact
      isProper_positional _ (isDigits_zeros 1) nofun
        (fun _ => rfl) nofun
  · rw [hSome]
    split
    · rw [shortestOf_of_not_dvd hM]
      exact
        isProper_exponent _ (isDigits_digitChars m)
          (digitChars_ne_nil m) _ _
    · cases hSplit : (shortestOf m w).positional with
      | mk whole fraction =>
          have hSplits := splits_positional hM w
          rw [hSplit] at hSplits
          exact
            isProper_positional _ hSplits.whole hSplits.nonempty
              (leading_positional hM w hSplit) hSplits.fraction

------------------------------------------------------------
-- Collecting Digits
------------------------------------------------------------

/- All digits are collected if their number fits 64 bits. -/
theorem collect_eq
    {cs : List Char}
    (hDigits : IsDigits cs)
    {n : Nat}
    (hFits : Nat.ofDigitChars 10 cs n < twoTo 64) :
    collect n cs = (Nat.ofDigitChars 10 cs n, []) := by
  induction cs generalizing n with
  | nil => rfl
  | cons c cs ih =>
      have hHead := hDigits c List.mem_cons_self
      rw [Nat.ofDigitChars_cons] at hFits ⊢
      have hNext := le_ofDigitChars (10 * n + (c.toNat - '0'.toNat)) cs
      rw [collect, digitValue?_eq, if_pos hHead, Option.getD_some,
        if_pos (by omega)]
      exact ih hDigits.tail hFits

/-
  A numeral whose digits fit 64 bits is taken for these
  digits, scaled by the exponent and the places.
-/
theorem real?_eq
    {t : Numeral}
    (hWhole : IsDigits t.whole)
    (hFraction : IsDigits t.fraction)
    (hFits :
      Nat.ofDigitChars 10 (t.whole ++ t.fraction) 0 < twoTo 64) :
    t.real? =
      (scaled? (Nat.ofDigitChars 10 (t.whole ++ t.fraction) 0)
        (t.writtenExponent - t.fraction.length)).map
          (·.withSign t.negative) := by
  rw [Nat.ofDigitChars_append] at hFits ⊢
  have hBefore :=
    collect_eq hWhole
      (lt_of_le_of_lt (le_ofDigitChars _ t.fraction) hFits)
  have hBehind := collect_eq hFraction hFits
  unfold real?
  rw [hBefore]
  dsimp only
  rw [hBehind]
  simp

------------------------------------------------------------
-- Dividing By Powers Of Ten
------------------------------------------------------------

/- Powers of ten up to the 22nd are doubles. -/
theorem powerOfTen_eq
    {k : Nat}
    (hK : k ≤ 22) :
    (powerOfTen k).magnitude = 10 ^ k ∧
      (powerOfTen k).negative = false := by
  have hFive : 5 ^ k < 2 ^ 53 :=
    lt_of_le_of_lt (Nat.pow_le_pow_right (by decide) hK)
      (by decide)
  have hTen : ((5 ^ k : ℕ) : ℚ) * 2 ^ (k : ℤ) = 10 ^ k := by
    rw [zpow_natCast]
    push_cast
    rw [← mul_pow]
    norm_num
  rcases exists_nearest?_exact false hFive (j := k) (by omega)
    (by omega) with ⟨x, hX, hMagnitude⟩
  rw [hTen] at hX hMagnitude
  have hPower : powerOfTen k = x := by
    unfold powerOfTen
    rw [ofRatio?_eq_nearest? _ _ Nat.one_pos, tenTo_eq_pow]
    push_cast
    rw [div_one, hX, Option.getD_some]
  rw [hPower]
  exact ⟨hMagnitude, negative_of_nearest? hX⟩

/-
  An integer that is a double, divided by a power of ten
  that is one, is rounded once.
-/
theorem scaled?_eq
    {n m j : Nat}
    (hN : n = m * 2 ^ j)
    (hM : m < 2 ^ 53)
    (hJ : j ≤ 970)
    {e : ℤ}
    (hE : -22 ≤ e)
    (hNegative : e < 0)
    {x : Binary64}
    (hX : nearest? false (n * 10 ^ e) = some x) :
    scaled? n e = some x := by
  rcases Int.eq_ofNat_of_zero_le (neg_nonneg.mpr hNegative.le) with
    ⟨k, hK⟩
  rcases exists_nearest?_exact false hM (j := j) (by omega)
    (by omega) with ⟨y, hY, hMagnitude⟩
  have hSame : (m : ℚ) * 2 ^ (j : ℤ) = n := by
    rw [hN, zpow_natCast]
    push_cast
    rfl
  rw [hSame] at hY hMagnitude
  rcases powerOfTen_eq (k := k) (by omega) with ⟨hTen, hSign⟩
  have hPos : 0 < (powerOfTen k).magnitude := by
    rw [hTen]
    positivity
  have hQuotient : y.div? (powerOfTen k) = some x := by
    rw [div?_eq y hPos, hTen, hSign, negative_of_nearest? hY,
      hMagnitude, ← hX]
    rw [show e = -(k : ℤ) by omega, zpow_neg, zpow_natCast]
    rfl
  unfold scaled?
  rw [ofRatio?_eq_nearest? _ _ Nat.one_pos, Nat.cast_one, div_one,
    hY, Option.bind_some, if_pos hNegative, hK, Int.toNat_natCast,
    divideByPower, if_pos (by omega), hQuotient,
    Option.getD_some]

/-
  A numeral with a point or an exponent is taken for the
  double nearest to it, if its digits are a double and are
  divided by a power of ten that is one.
-/
theorem number?_of_quotient
    {t : Numeral}
    (hWhole : IsDigits t.whole)
    (hFraction : IsDigits t.fraction)
    (hReal : t.fraction ≠ [] ∨ t.exponent ≠ none)
    {n m j : Nat}
    (hDigits : Nat.ofDigitChars 10 (t.whole ++ t.fraction) 0 = n)
    (hN : n = m * 2 ^ j)
    (hM : m < 2 ^ 53)
    (hJ : j ≤ 10)
    {e : ℤ}
    (hE : t.writtenExponent - t.fraction.length = e)
    (hPlaces : -22 ≤ e)
    (hNegative : e < 0)
    {x : Binary64}
    (hX : nearest? t.negative (n * 10 ^ e) = some x) :
    t.number? = some (.real x) := by
  have hFits : n < twoTo 64 := by
    rw [hN, twoTo_eq_pow]
    calc
      m * 2 ^ j ≤ m * 2 ^ 10 :=
        Nat.mul_le_mul_left _ (Nat.pow_le_pow_right two_pos hJ)
      _ < 2 ^ 64 := by omega
  have hRead := real?_eq hWhole hFraction (hDigits.symm ▸ hFits)
  rw [nearest?_eq_map, Option.map_eq_some_iff] at hX
  rcases hX with ⟨y, hY, hSign⟩
  rw [hDigits, hE, scaled?_eq hN hM (by omega) hPlaces hNegative hY,
    Option.map_some, hSign] at hRead
  unfold number?
  dsimp only
  rw [hRead, if_neg]
  · rfl
  · rintro ⟨hEmpty, hNone⟩
    rw [List.isEmpty_iff] at hEmpty
    rw [Option.isNone_iff_eq_none] at hNone
    rcases hReal with hSome | hSome
    · exact hSome hEmpty
    · exact hSome hNone

------------------------------------------------------------
-- Numerals Of Short Decimals
------------------------------------------------------------

theorem number?_exponent
    {negative : Bool}
    {m : Nat}
    (hM : m < 10 ^ 15)
    {w : ℤ}
    (hPlaces : -22 ≤ w)
    (hSmall : w + (digitChars m).length - 1 < 0)
    {x : Binary64}
    (hX : nearest? negative (m * 10 ^ w) = some x) :
    number?
        ⟨negative, (digitChars m).take 1, (digitChars m).drop 1,
          some (.minus,
            digitChars
              (w + (digitChars m).length - 1).natAbs)⟩ =
      some (.real x) := by
  have hDigits := isDigits_digitChars m
  have hLength : 0 < (digitChars m).length :=
    Nat.length_toDigits_pos
  have hNumber : Nat.ofDigitChars 10 (digitChars m) 0 = m :=
    Nat.ofDigitChars_ten_toDigits
  refine
    number?_of_quotient (n := m) (m := m) (j := 0) (e := w)
      (fun c hMem => hDigits c (List.mem_of_mem_take hMem))
      (fun c hMem => hDigits c (List.mem_of_mem_drop hMem))
      (.inr (Option.some_ne_none _)) ?_ (by omega) (by omega)
      (by omega) ?_ hPlaces (by omega) hX
  · dsimp only
    rw [List.take_append_drop]
    exact hNumber
  · unfold writtenExponent
    dsimp only
    rw [natOfDigits?_digitChars, Option.getD_some, if_pos rfl,
      List.length_drop]
    omega

theorem number?_positional
    {negative : Bool}
    {m : Nat}
    {w : ℤ}
    (hSmall : m * 10 ^ w.toNat < 10 ^ 15)
    (hPlaces : -22 ≤ w)
    {x : Binary64}
    (hX : nearest? negative (m * 10 ^ w) = some x)
    {whole fraction : List Char}
    (hSplits : Splits m w whole fraction) :
    number?
        ⟨negative, whole,
          if fraction.isEmpty then ['0'] else fraction, none⟩ =
      some (.real x) := by
  have hLength := hSplits.places
  have hNumber := hSplits.number
  cases fraction with
  | nil =>
      -- The zero behind the point is read as a digit.
      rw [List.length_nil] at hLength
      rw [List.append_nil] at hNumber
      have hTenfold :
          Nat.ofDigitChars 10 (whole ++ ['0']) 0 =
            10 * (m * 10 ^ w.toNat) := by
        rw [Nat.ofDigitChars_append, hNumber]
        rfl
      have hValue :
          ((10 * (m * 10 ^ w.toNat) : ℕ) : ℚ) * 10 ^ (-1 : ℤ) =
            m * 10 ^ w := by
        have hInteger : (10 : ℚ) ^ w = 10 ^ w.toNat := by
          rw [← zpow_natCast, Int.toNat_of_nonneg (by omega)]
        rw [hInteger]
        push_cast
        ring
      rw [← hValue] at hX
      exact
        number?_of_quotient (m := 5 * (m * 10 ^ w.toNat)) (j := 1)
          (e := -1) hSplits.whole (isDigits_zeros 1)
          (.inl (List.cons_ne_nil _ _)) hTenfold (by omega)
          (by omega) (by omega) rfl (by decide) (by decide) hX
  | cons d ds =>
      rw [List.length_cons] at hLength
      rw [show w.toNat = 0 by omega, pow_zero, Nat.mul_one]
        at hNumber hSmall
      change number? ⟨negative, whole, d :: ds, none⟩ = _
      refine
        number?_of_quotient (m := m) (j := 0) (e := w)
          hSplits.whole hSplits.fraction
          (.inl (List.cons_ne_nil _ _)) hNumber (by omega)
          (by omega) (by omega) ?_ hPlaces (by omega) hX
      unfold writtenExponent
      dsimp only
      rw [List.length_cons]
      omega

/-
  The numeral of the double of a short decimal is taken for
  that double.
-/
theorem number?_ofBinary64
    {r : ℚ}
    {c : Nat}
    {unit : ℤ}
    (hShort : IsShort r c unit)
    {negative : Bool}
    {x : Binary64}
    (hX : nearest? negative r = some x) :
    (ofBinary64 x).number? = some (.real x) := by
  rcases hShort.shortest_eq hX with ⟨m, w, hM, hValue, hShortest⟩
  rcases hShort.digits_le hM hValue with ⟨hCoarse, hFew⟩
  have hPlaces := hShort.places
  have hDigits := hShort.digits
  have hSmall := hShort.integer_lt hM hValue
  have hSign := negative_of_nearest? hX
  rw [hValue] at hX
  unfold ofBinary64
  rw [hShortest, hSign]
  dsimp only
  split
  · rename_i hRange
    rw [shortestOf_of_not_dvd hM] at hRange ⊢
    dsimp only at hRange ⊢
    have hNegative : w + (digitChars m).length - 1 < 0 := by
      have hLength := hShort.length_le hM hValue
      omega
    rw [if_pos hNegative]
    exact number?_exponent (by omega) (by omega) hNegative hX
  · exact
      number?_positional hSmall (by omega) hX
        (splits_positional hM w)

end Numeral

end OrderDesk
