import OrderDesk.Proofs.Binary64.Rounding
import OrderDesk.Proofs.Text.Digits

/-
  This file proves that the shortest digits of a double are
  those of the decimal it is the nearest double to, if that
  decimal has at most 15 digits and at most 22 places.

  Two decimals with so few digits never have the same
  nearest double. The search for the shortest digits starts
  at the coarsest unit and stops at the unit of the decimal
  at the latest; whatever it finds there or before is equal
  to the decimal.

  Key definitions include:
    * `Binary64.Splits`
    * `Binary64.IsShort`

  Key theorems include:
    * `Binary64.multiple_unique`
    * `Binary64.IsShort.exists_grid`
    * `Binary64.IsShort.shortest_eq`
-/

namespace OrderDesk

namespace Binary64

------------------------------------------------------------
-- Multiples Of Powers Of Ten
------------------------------------------------------------

/- A multiple of a power of ten is rounded as the number it is. -/
theorem multiple_eq_nearest?
    (negative : Bool)
    (c : Nat)
    (unit : ℤ) :
    ofRatio? negative (c * tenTo unit.toNat) (tenTo (-unit).toNat) =
      nearest? negative (c * 10 ^ unit) := by
  have hPower := zpow_eq_div (b := 10) (by decide) unit
  rw [Nat.cast_ofNat] at hPower
  rw [ofRatio?_eq_nearest? _ _ (tenTo_pos _), tenTo_eq_pow,
    tenTo_eq_pow, hPower, Nat.cast_mul, mul_div_assoc]

/- The magnitude in units of a power of ten. -/
theorem magnitude_in_units
    (x : Binary64)
    (unit : ℤ) :
    ((x.numerator * tenTo (-unit).toNat : ℕ) : ℚ) /
        ((x.denominator * tenTo unit.toNat : ℕ) : ℚ) =
      x.magnitude / 10 ^ unit := by
  rw [← x.numerator_div_denominator]
  exact_mod_cast
    quotient_at (b := 10) (by decide) x.numerator x.denominator unit

/- What is found on a grid reads back as the double. -/
theorem reads_of_onGrid?
    {x : Binary64}
    {unit : ℤ}
    {c : Nat}
    (hGrid : onGrid? x unit = some c) :
    nearest? x.negative (c * 10 ^ unit) = some x := by
  unfold onGrid? at hGrid
  simp only [multiple_eq_nearest?] at hGrid
  split at hGrid
  · rename_i hReads
    cases hGrid
    exact hReads
  · split at hGrid
    · rename_i hReads
      cases hGrid
      exact hReads
    · split at hGrid
      · rename_i hReads
        cases hGrid
        exact hReads
      · cases hGrid

theorem onGrid?_eq_some
    {x : Binary64}
    {unit : ℤ}
    {c : Nat}
    (hReads : nearest? x.negative (c * 10 ^ unit) = some x)
    (hNear : |x.magnitude / 10 ^ unit - c| < 1 / 2) :
    onGrid? x unit = some c := by
  have hPos : 0 < x.denominator * tenTo unit.toNat :=
    Nat.mul_pos x.denominator_pos (tenTo_pos _)
  rw [← magnitude_in_units] at hNear
  unfold onGrid?
  simp only [multiple_eq_nearest?, roundHalfEven_eq hPos hNear]
  rw [if_pos hReads]

/- The exponent of the leading digit is that of the greatest power. -/
theorem decimalExponentOf_between
    {n d : Nat}
    (hN : 0 < n)
    (hD : 0 < d) :
    (10 : ℚ) ^ decimalExponentOf n d ≤ n / d ∧
      (n : ℚ) / d < 10 ^ (decimalExponentOf n d + 1) := by
  have hDCast : (0 : ℚ) < d := by exact_mod_cast hD
  have hLength :
      ∀ {m : Nat}, 0 < m →
        (10 : ℚ) ^ (((digitChars m).length : ℤ) - 1) ≤ m ∧
          (m : ℚ) < 10 ^ (((digitChars m).length : ℤ) - 1 + 1) := by
    intro m hM
    have hPos : 0 < (digitChars m).length :=
      Nat.length_toDigits_pos
    rcases between_length_digitChars hM with ⟨hLower, hUpper⟩
    rw [sub_add_cancel, zpow_natCast, ← Nat.cast_pred hPos,
      zpow_natCast]
    exact ⟨by exact_mod_cast hLower, by exact_mod_cast hUpper⟩
  have hBetween :=
    quotient_between (by norm_num) hDCast (hLength hN).1
      (hLength hN).2 (hLength hD).1 (hLength hD).2
  rw [sub_sub_sub_cancel_right] at hBetween
  have hTop := between_powers hBetween.1 hBetween.2
  have hReaches :
      ∀ e : ℤ,
        d * tenTo e.toNat ≤ n * tenTo (-e).toNat ↔
          (10 : ℚ) ^ e ≤ n / d := by
    intro e
    have hPower := zpow_eq_div (b := 10) (by decide) e
    rw [Nat.cast_ofNat] at hPower
    rw [tenTo_eq_pow, tenTo_eq_pow, hPower,
      div_le_div_iff₀ (by positivity) hDCast, mul_comm d]
    norm_cast
  unfold decimalExponentOf
  simp only [hReaches]
  exact hTop

------------------------------------------------------------
-- Decimals With Few Digits
------------------------------------------------------------

/- The smallest unit that is looked at is not too small. -/
theorem least_le_ten_zpow
    {unit : ℤ}
    (hUnit : -23 ≤ unit) :
    (2 : ℚ) ^ (-1022 : ℤ) ≤ 10 ^ unit := by
  calc
    (2 : ℚ) ^ (-1022 : ℤ)
        ≤ 2 ^ (-92 : ℤ) :=
          zpow_le_zpow_right₀ one_le_two (by decide)
    _ ≤ 10 ^ (-23 : ℤ) := by norm_num
    _ ≤ 10 ^ unit := zpow_le_zpow_right₀ (by norm_num) hUnit

theorem unit_le_multiple
    {c : Nat}
    (hC : 0 < c)
    (unit : ℤ) :
    (10 : ℚ) ^ unit ≤ c * 10 ^ unit := by
  have hOne : (1 : ℚ) ≤ c := by exact_mod_cast hC
  exact le_mul_of_one_le_left (by positivity) hOne

/- The double of a multiple of a unit, in that unit. -/
theorem abs_magnitude_div_sub_le
    {negative : Bool}
    {c : Nat}
    (hC : 0 < c)
    {unit : ℤ}
    (hUnit : -23 ≤ unit)
    {x : Binary64}
    (hX : nearest? negative (c * 10 ^ unit) = some x) :
    |x.magnitude / 10 ^ unit - c| ≤ c / 2 ^ 53 := by
  have hTen : (0 : ℚ) < 10 ^ unit := by positivity
  have hNear :=
    abs_magnitude_sub_le
      (le_trans (least_le_ten_zpow hUnit)
        (unit_le_multiple hC unit)) hX
  have hScaled :
      x.magnitude / 10 ^ unit - c =
        (x.magnitude - c * 10 ^ unit) / 10 ^ unit := by
    field_simp
  rw [hScaled, abs_div, abs_of_pos hTen, div_le_iff₀ hTen]
  calc
    |x.magnitude - c * 10 ^ unit|
        ≤ c * 10 ^ unit / 2 ^ 53 := hNear
    _ = c / 2 ^ 53 * 10 ^ unit := by ring

/- The multiple is the nearest one if it has at most 15 digits. -/
theorem onGrid?_of_nearest?
    {negative : Bool}
    {c : Nat}
    (hC : 0 < c)
    (hDigits : c < 10 ^ 15)
    {unit : ℤ}
    (hUnit : -23 ≤ unit)
    {x : Binary64}
    (hX : nearest? negative (c * 10 ^ unit) = some x) :
    onGrid? x unit = some c := by
  have hNear := abs_magnitude_div_sub_le hC hUnit hX
  have hCast : (c : ℚ) < 10 ^ 15 := by exact_mod_cast hDigits
  rw [← negative_of_nearest? hX] at hX
  refine onGrid?_eq_some hX (lt_of_le_of_lt hNear ?_)
  rw [div_lt_iff₀ (by positivity)]
  linarith

/- Two decimals with few digits do not have the same double. -/
theorem multiple_unique
    {negative : Bool}
    {c c' : Nat}
    (hC : 0 < c)
    (hC' : 0 < c')
    (hDigits : c < 10 ^ 15)
    {unit : ℤ}
    (hUnit : -23 ≤ unit)
    {x : Binary64}
    (hX : nearest? negative (c * 10 ^ unit) = some x)
    (hX' : nearest? negative (c' * 10 ^ unit) = some x) :
    c' = c := by
  have hNear := abs_magnitude_div_sub_le hC hUnit hX
  have hNear' := abs_magnitude_div_sub_le hC' hUnit hX'
  rw [abs_le] at hNear hNear'
  have hAbove : (2 ^ 53 : ℚ) * c' ≤ 2 ^ 53 * c + (c + c') := by
    linarith
  have hBelow : (2 ^ 53 : ℚ) * c ≤ 2 ^ 53 * c' + (c + c') := by
    linarith
  have hAboveNat : 2 ^ 53 * c' ≤ 2 ^ 53 * c + (c + c') := by
    exact_mod_cast hAbove
  have hBelowNat : 2 ^ 53 * c ≤ 2 ^ 53 * c' + (c + c') := by
    exact_mod_cast hBelow
  omega

------------------------------------------------------------
-- The Search For The Shortest Digits
------------------------------------------------------------

/- The exponent of the leading digit of a double. -/
def top
    (x : Binary64) : ℤ :=
  decimalExponentOf x.numerator x.denominator

/- A double is between powers of ten. -/
theorem top_between
    {x : Binary64}
    (hX : 0 < x.magnitude) :
    (10 : ℚ) ^ x.top ≤ x.magnitude ∧
      x.magnitude < 10 ^ (x.top + 1) := by
  have hNumerator : 0 < x.numerator := by
    have hQuotient := x.numerator_div_denominator
    by_contra hNot
    have hZero : x.numerator = 0 := by omega
    rw [hZero, Nat.cast_zero, zero_div] at hQuotient
    exact hX.ne hQuotient
  have hBetween :=
    decimalExponentOf_between hNumerator x.denominator_pos
  rw [numerator_div_denominator] at hBetween
  exact hBetween

/- The units that are looked at, the coarsest first. -/
def grids
    (x : Binary64) : List ℤ :=
  (List.range 17).map fun (k : Nat) => x.top - (k : ℤ)

/- The first multiple that is found, with its unit. -/
def search?
    (x : Binary64) : Option (Nat × ℤ) :=
  x.grids.findSome? fun unit =>
    (onGrid? x unit).map fun c => (c, unit)

/- The digits of a multiple of a unit. -/
def shortestOf
    (c : Nat)
    (unit : ℤ) : Shortest :=
  ⟨dropTrailingZeros (digitChars c),
    unit + (digitChars c).length - 1⟩

/- Zeros at the end are dropped, and no other digit. -/
theorem dropTrailingZeros_append
    {cs : List Char}
    (hLast : cs.getLast? ≠ some '0')
    (k : Nat) :
    dropTrailingZeros (cs ++ List.replicate k '0') = cs := by
  have hZeros :
      ∀ c ∈ List.replicate k '0', decide (c = '0') = true := by
    intro c hMem
    exact decide_eq_true (List.eq_of_mem_replicate hMem)
  have hEnds : NotBefore (fun c => decide (c = '0')) cs.reverse := by
    intro c hHead
    rw [List.head?_reverse, Option.mem_def] at hHead
    refine decide_eq_false fun hEq => hLast ?_
    rw [hHead, hEq]
  unfold dropTrailingZeros
  rw [List.reverse_append, List.reverse_replicate,
    (takeWhile_append_of_notBefore hZeros hEnds).2,
    List.reverse_reverse]

/- What ten does not divide is positive. -/
theorem pos_of_not_dvd
    {m : Nat}
    (hM : ¬ 10 ∣ m) :
    0 < m := by
  refine Nat.pos_of_ne_zero ?_
  rintro rfl
  exact hM (dvd_zero 10)

/- The digits of a multiple that ten does not divide. -/
theorem shortestOf_of_not_dvd
    {m : Nat}
    (hM : ¬ 10 ∣ m)
    (unit : ℤ) :
    shortestOf m unit =
      ⟨digitChars m, unit + (digitChars m).length - 1⟩ := by
  have hDrop :=
    dropTrailingZeros_append (getLast?_digitChars_ne hM) 0
  rw [List.replicate_zero, List.append_nil] at hDrop
  unfold shortestOf
  rw [hDrop]

/- Factors of ten go from the multiple to the unit. -/
theorem shortestOf_mul_pow
    {m : Nat}
    (hM : ¬ 10 ∣ m)
    (unit : ℤ)
    (k : Nat) :
    shortestOf (m * 10 ^ k) unit = shortestOf m (unit + k) := by
  rw [shortestOf_of_not_dvd hM]
  unfold shortestOf
  rw [digitChars_mul_pow (pos_of_not_dvd hM),
    dropTrailingZeros_append (getLast?_digitChars_ne hM),
    List.length_append, List.length_replicate, Nat.cast_add]
  congr 1
  ring

/- A multiple has the digits of one that ten does not divide. -/
theorem exists_shortestOf
    {k : Nat}
    (hK : 0 < k)
    (w : ℤ) :
    ∃ m : ℕ, ∃ v : ℤ,
      ¬ 10 ∣ m ∧ (k : ℚ) * 10 ^ w = m * 10 ^ v ∧
        shortestOf k w = shortestOf m v := by
  rcases Nat.exists_eq_pow_mul_and_not_dvd hK.ne' 10 (by decide)
    with ⟨z, m, hDivides, hSplit⟩
  rw [Nat.mul_comm] at hSplit
  refine ⟨m, w + z, hDivides, ?_, ?_⟩
  · rw [hSplit, zpow_add₀ (by norm_num), zpow_natCast]
    push_cast
    ring
  · rw [hSplit]
    exact shortestOf_mul_pow hDivides w z

/- The shortest digits are those of what is found first. -/
theorem shortest_eq_search
    {x : Binary64}
    (hZero : x.isZero = false) :
    x.shortest =
      shortestOf (x.search?.getD (0, 0)).1
        (x.search?.getD (0, 0)).2 := by
  unfold shortest
  rw [hZero, if_neg Bool.false_ne_true]
  rfl

/- The units become finer and finer. -/
theorem pairwise_grids
    (x : Binary64) :
    x.grids.Pairwise (· > ·) := by
  refine List.Pairwise.map _ ?_ List.pairwise_lt_range
  intro a b hLess
  omega

theorem mem_grids
    {x : Binary64}
    {unit : ℤ}
    (hTop : unit ≤ x.top)
    (hLast : x.top - 16 ≤ unit) :
    unit ∈ x.grids := by
  refine List.mem_map.mpr ⟨(x.top - unit).toNat, ?_, ?_⟩
  · rw [List.mem_range]
    omega
  · omega

/- What is found reads back as the double. -/
theorem reads_of_search?
    {x : Binary64}
    {k : Nat}
    {w : ℤ}
    (hSearch : x.search? = some (k, w)) :
    nearest? x.negative (k * 10 ^ w) = some x := by
  rcases List.exists_of_findSome?_eq_some hSearch with
    ⟨unit, -, hFound⟩
  rw [Option.map_eq_some_iff] at hFound
  rcases hFound with ⟨c, hGrid, hPair⟩
  cases hPair
  exact reads_of_onGrid? hGrid

/-
  What is found first is found with a unit that is at least
  as coarse as any with which something is found.
-/
theorem exists_search
    {x : Binary64}
    {unit : ℤ}
    {c : Nat}
    (hGrid : onGrid? x unit = some c)
    (hMem : unit ∈ x.grids) :
    ∃ k w, unit ≤ w ∧ x.search? = some (k, w) := by
  have hFound : x.search?.isSome := by
    unfold search?
    rw [List.findSome?_isSome_iff]
    refine ⟨unit, hMem, ?_⟩
    rw [hGrid]
    rfl
  rcases Option.isSome_iff_exists.mp hFound with ⟨⟨k, w⟩, hFirst⟩
  have hSplit := hFirst
  unfold search? at hSplit
  rw [List.findSome?_eq_some_iff] at hSplit
  rcases hSplit with ⟨before, found, behind, hGrids, hHere, hNone⟩
  rw [Option.map_eq_some_iff] at hHere
  rcases hHere with ⟨d, hOnGrid, hPair⟩
  cases hPair
  refine ⟨k, w, ?_, hFirst⟩
  have hSorted := x.pairwise_grids
  rw [hGrids] at hMem hSorted
  rcases List.mem_append.mp hMem with hBefore | hBehind
  · have hNothing := hNone unit hBefore
    rw [hGrid] at hNothing
    cases hNothing
  · rcases List.mem_cons.mp hBehind with rfl | hLater
    · exact le_refl _
    · have hTail := (List.pairwise_append.mp hSorted).2.1
      exact (List.rel_of_pairwise_cons hTail hLater).le

/-
  The digits of any double: a zero, nothing, or digits that
  neither begin nor end with a zero.
-/
theorem shortest_cases
    (x : Binary64) :
    x.shortest = ⟨['0'], 0⟩ ∨ x.shortest = ⟨[], 0⟩ ∨
      ∃ m w, ¬ 10 ∣ m ∧ x.shortest = shortestOf m w := by
  cases hZero : x.isZero with
  | true =>
      refine .inl ?_
      unfold shortest
      rw [if_pos hZero]
  | false =>
      rw [shortest_eq_search hZero]
      cases hSearch : x.search? with
      | none => exact .inr (.inl rfl)
      | some found =>
          rcases found with ⟨k, w⟩
          refine .inr (.inr ?_)
          have hPos : k ≠ 0 := by
            rintro rfl
            have hReads := reads_of_search? hSearch
            rw [Nat.cast_zero, zero_mul, nearest?_zero] at hReads
            rw [← Option.some.inj hReads] at hZero
            cases hZero
          rcases exists_shortestOf (Nat.pos_of_ne_zero hPos) w with
            ⟨m, v, hDivides, -, hDigits⟩
          exact ⟨m, v, hDivides, hDigits⟩

------------------------------------------------------------
-- Positional Notation
------------------------------------------------------------

/-
  The digits before and behind the point, of which there is
  at least one before it. Together they denote the number in
  units of its last place.
-/
structure Splits
    (m : Nat)
    (w : ℤ)
    (before behind : List Char) : Prop where
  whole : IsDigits before
  nonempty : before ≠ []
  fraction : IsDigits behind
  places : behind.length = (-w).toNat
  number :
    Nat.ofDigitChars 10 (before ++ behind) 0 = m * 10 ^ w.toNat

theorem splits_of_lt_one
    (m : Nat)
    {w : ℤ}
    (hSmall : w + (digitChars m).length - 1 < 0) :
    Splits m w ['0']
      (List.replicate
          (-(w + (digitChars m).length - 1) - 1).toNat '0' ++
        digitChars m) where
  whole := isDigits_zeros 1
  nonempty := List.cons_ne_nil _ _
  fraction := (isDigits_zeros _).append (isDigits_digitChars m)
  places := by
    rw [List.length_append, List.length_replicate]
    omega
  number := by
    have hNumber : Nat.ofDigitChars 10 (digitChars m) 0 = m :=
      Nat.ofDigitChars_ten_toDigits
    rw [Nat.ofDigitChars_append, Nat.ofDigitChars_append,
      Nat.ofDigitChars_replicate_zero, show w.toNat = 0 by omega]
    simpa [Nat.ofDigitChars_cons] using hNumber

theorem splits_of_integer
    (m : Nat)
    {w : ℤ}
    (hInteger : 0 ≤ w) :
    Splits m w (digitChars m ++ List.replicate w.toNat '0') [] where
  whole := (isDigits_digitChars m).append (isDigits_zeros _)
  nonempty := by
    intro hEmpty
    exact digitChars_ne_nil m (List.append_eq_nil_iff.mp hEmpty).1
  fraction := nofun
  places := by
    rw [List.length_nil]
    omega
  number := by
    have hNumber : Nat.ofDigitChars 10 (digitChars m) 0 = m :=
      Nat.ofDigitChars_ten_toDigits
    rw [List.append_nil, Nat.ofDigitChars_append,
      Nat.ofDigitChars_replicate_zero, hNumber, Nat.mul_comm]

theorem splits_of_mixed
    (m : Nat)
    {w : ℤ}
    (hPlaces : w < 0)
    (hLarge : 0 ≤ w + (digitChars m).length - 1) :
    Splits m w
      ((digitChars m).take
        ((w + (digitChars m).length - 1).toNat + 1))
      ((digitChars m).drop
        ((w + (digitChars m).length - 1).toNat + 1)) where
  whole := fun c hMem =>
    isDigits_digitChars m c (List.mem_of_mem_take hMem)
  nonempty := by
    intro hEmpty
    have hNone := congrArg List.length hEmpty
    rw [List.length_take, List.length_nil] at hNone
    omega
  fraction := fun c hMem =>
    isDigits_digitChars m c (List.mem_of_mem_drop hMem)
  places := by
    rw [List.length_drop]
    omega
  number := by
    have hNumber : Nat.ofDigitChars 10 (digitChars m) 0 = m :=
      Nat.ofDigitChars_ten_toDigits
    rw [List.take_append_drop, hNumber, show w.toNat = 0 by omega,
      pow_zero, Nat.mul_one]

/- Positional notation splits the digits at the point. -/
theorem splits_positional
    {m : Nat}
    (hM : ¬ 10 ∣ m)
    (w : ℤ) :
    Splits m w (shortestOf m w).positional.1
      (shortestOf m w).positional.2 := by
  rw [shortestOf_of_not_dvd hM]
  unfold Shortest.positional
  dsimp only
  split
  · rename_i hSmall
    exact splits_of_lt_one m hSmall
  · rename_i hLarge
    dsimp only
    rcases le_or_gt 0 w with hInteger | hPlaces
    · rw [List.take_of_length_le (by omega),
        List.drop_of_length_le (by omega)]
      have hZeros :
          (w + (digitChars m).length - 1).toNat + 1 -
              (digitChars m).length =
            w.toNat := by
        have hLength : 0 < (digitChars m).length :=
          Nat.length_toDigits_pos
        omega
      rw [hZeros]
      exact splits_of_integer m hInteger
    · rw [Nat.sub_eq_zero_of_le (by omega), List.replicate_zero,
        List.append_nil]
      exact splits_of_mixed m hPlaces (by omega)

------------------------------------------------------------
-- What Is Found
------------------------------------------------------------

/-
  The number is a positive integer of at most 15 digits over
  a power of ten, which is at most the 22nd.
-/
structure IsShort
    (r : ℚ)
    (c : Nat)
    (unit : ℤ) : Prop where
  eq : r = c * 10 ^ unit
  pos : 0 < c
  digits : c < 10 ^ 15
  places : -22 ≤ unit
  fraction : unit ≤ 0

namespace IsShort

variable {r : ℚ} {c : Nat} {unit : ℤ}
variable {negative : Bool} {x : Binary64}

/- The double differs from the decimal by a factor near one. -/
theorem magnitude_near
    (hShort : IsShort r c unit)
    (hX : nearest? negative r = some x) :
    r ≤ 2 * x.magnitude ∧ x.magnitude < 10 ^ (unit + 16) := by
  have hTen : (0 : ℚ) < 10 ^ unit := by positivity
  have hPlaces := hShort.places
  rw [hShort.eq] at hX ⊢
  have hNear :=
    abs_magnitude_div_sub_le hShort.pos (by omega) hX
  have hPos : (0 : ℚ) < c := by exact_mod_cast hShort.pos
  have hDigits : (c : ℚ) < 10 ^ 15 := by
    exact_mod_cast hShort.digits
  rw [abs_le] at hNear
  constructor
  · have hHalf : (c : ℚ) ≤ 2 * (x.magnitude / 10 ^ unit) := by
      linarith
    calc
      (c : ℚ) * 10 ^ unit
          ≤ 2 * (x.magnitude / 10 ^ unit) * 10 ^ unit := by gcongr
      _ = 2 * x.magnitude := by field_simp
  · rw [zpow_add₀ (by norm_num), mul_comm, ← div_lt_iff₀ hTen]
    have hBound : (10 : ℚ) ^ (16 : ℤ) = 10 * 10 ^ 15 := by
      norm_num
    rw [hBound]
    linarith

/- The decimal is at least its unit. -/
theorem unit_le
    (hShort : IsShort r c unit) :
    (10 : ℚ) ^ unit ≤ r := by
  rw [hShort.eq]
  exact unit_le_multiple hShort.pos unit

theorem magnitude_pos
    (hShort : IsShort r c unit)
    (hX : nearest? negative r = some x) :
    0 < x.magnitude := by
  have hTen : (0 : ℚ) < 10 ^ unit := by positivity
  have hUnit := hShort.unit_le
  have hHalf := (hShort.magnitude_near hX).1
  linarith

/-
  There is a unit that is looked at and on which the decimal
  itself is found. It is the decimal's own unit, or that of
  the double's leading digit if that one is finer. The
  latter happens if the decimal is a power of ten that the
  double stays below.
-/
theorem exists_grid
    (hShort : IsShort r c unit)
    (hX : nearest? negative r = some x) :
    ∃ v : ℤ, ∃ d : ℕ,
      v ∈ x.grids ∧ -23 ≤ v ∧ 0 < d ∧ d < 10 ^ 15 ∧
        r = d * 10 ^ v ∧ onGrid? x v = some d := by
  rcases hShort.magnitude_near hX with ⟨hHalf, hBelow⟩
  have hPlaces := hShort.places
  have hUnit := hShort.unit_le
  rcases top_between (hShort.magnitude_pos hX) with ⟨hTop, hTop'⟩
  have hLast : x.top < unit + 16 :=
    (zpow_lt_zpow_iff_right₀ (by norm_num)).mp
      (lt_of_le_of_lt hTop hBelow)
  rcases le_or_gt unit x.top with hCoarse | hFine
  · have hGrid :=
      onGrid?_of_nearest? hShort.pos hShort.digits (by omega)
        (hShort.eq ▸ hX)
    exact
      ⟨unit, c, mem_grids hCoarse (by omega), by omega, hShort.pos,
        hShort.digits, hShort.eq, hGrid⟩
  · have hTwice : r < 2 * 10 ^ (x.top + 1) := by linarith
    have hLeast : -23 ≤ x.top := by
      have hPowers : (10 : ℚ) ^ unit < 10 ^ (x.top + 2) := by
        have hTen : (0 : ℚ) < 10 ^ (x.top + 1) := by positivity
        rw [show x.top + 2 = x.top + 1 + 1 by omega,
          zpow_add_one₀ (by norm_num)]
        linarith
      rw [zpow_lt_zpow_iff_right₀ (by norm_num)] at hPowers
      omega
    rcases Int.eq_ofNat_of_zero_le (sub_nonneg.mpr hFine.le) with
      ⟨k, hK⟩
    have hValue : r = (c * 10 ^ k : ℕ) * 10 ^ x.top := by
      have hSplit : unit = k + x.top := by omega
      rw [hShort.eq, hSplit, zpow_add₀ (by norm_num), zpow_natCast]
      push_cast
      ring
    have hPos : 0 < c * 10 ^ k :=
      Nat.mul_pos hShort.pos (by positivity)
    have hDigits : c * 10 ^ k < 10 ^ 15 := by
      have hTen : (0 : ℚ) < 10 ^ x.top := by positivity
      rw [hValue, zpow_add_one₀ (by norm_num)] at hTwice
      have hFew : ((c * 10 ^ k : ℕ) : ℚ) < 20 := by
        refine lt_of_mul_lt_mul_right ?_ hTen.le
        linarith
      have hNat : c * 10 ^ k < 20 := by exact_mod_cast hFew
      omega
    have hGrid :=
      onGrid?_of_nearest? hPos hDigits hLeast (hValue ▸ hX)
    exact
      ⟨x.top, c * 10 ^ k, mem_grids le_rfl (by omega), hLeast,
        hPos, hDigits, hValue, hGrid⟩

/- What is found first is equal to the decimal. -/
theorem search_eq
    (hShort : IsShort r c unit)
    (hX : nearest? negative r = some x) :
    ∃ k : ℕ, ∃ w : ℤ,
      0 < k ∧ r = k * 10 ^ w ∧ x.search? = some (k, w) := by
  rcases hShort.exists_grid hX with
    ⟨v, d, hMem, hLeast, hPos, hDigits, hValue, hGrid⟩
  rcases exists_search hGrid hMem with ⟨k, w, hCoarse, hSearch⟩
  have hReads := reads_of_onGrid? hGrid
  have hReads' := reads_of_search? hSearch
  have hPositive : 0 < k := by
    rcases Nat.eq_zero_or_pos k with rfl | hK
    · have hMagnitude := hShort.magnitude_pos hX
      rw [Nat.cast_zero, zero_mul, nearest?_zero] at hReads'
      rw [← Option.some.inj hReads'] at hMagnitude
      simp [magnitude, zero] at hMagnitude
    · exact hK
  rcases Int.eq_ofNat_of_zero_le (sub_nonneg.mpr hCoarse) with
    ⟨j, hJ⟩
  have hFine : (k : ℚ) * 10 ^ w = (k * 10 ^ j : ℕ) * 10 ^ v := by
    have hSplit : w = j + v := by omega
    rw [hSplit, zpow_add₀ (by norm_num), zpow_natCast]
    push_cast
    ring
  rw [hFine] at hReads'
  have hSame :=
    multiple_unique hPos (Nat.mul_pos hPositive (by positivity))
      hDigits hLeast hReads hReads'
  refine ⟨k, w, hPositive, ?_, hSearch⟩
  rw [hFine, hSame, hValue]

/- Without zeros at the end a decimal has the fewest digits. -/
theorem digits_le
    (hShort : IsShort r c unit)
    {m : Nat}
    {w : ℤ}
    (hM : ¬ 10 ∣ m)
    (hValue : r = m * 10 ^ w) :
    unit ≤ w ∧ m ≤ c := by
  have hSame : (m : ℚ) * 10 ^ w = c * 10 ^ unit := by
    rw [← hValue, hShort.eq]
  rcases le_or_gt unit w with hCoarse | hFine
  · rcases Int.eq_ofNat_of_zero_le (sub_nonneg.mpr hCoarse) with
      ⟨k, hK⟩
    have hSplit : w = k + unit := by omega
    rw [hSplit, zpow_add₀ (by norm_num), zpow_natCast,
      ← mul_assoc, mul_left_inj' (by positivity)] at hSame
    have hNat : m * 10 ^ k = c := by exact_mod_cast hSame
    refine ⟨hCoarse, ?_⟩
    rw [← hNat]
    exact Nat.le_mul_of_pos_right m (by positivity)
  · rcases Int.eq_ofNat_of_zero_le (sub_nonneg.mpr hFine.le) with
      ⟨k, hK⟩
    have hSplit : unit = k + w := by omega
    rw [hSplit, zpow_add₀ (by norm_num), zpow_natCast,
      ← mul_assoc, mul_left_inj' (by positivity)] at hSame
    have hNat : m = c * 10 ^ k := by exact_mod_cast hSame
    refine absurd (hNat ▸ ?_) hM
    exact Dvd.dvd.mul_left (dvd_pow_self 10 (by omega)) c

/-
  Before the point there are at most 15 digits, those that
  are missing at the end counted as well.
-/
theorem integer_lt
    (hShort : IsShort r c unit)
    {m : Nat}
    {w : ℤ}
    (hM : ¬ 10 ∣ m)
    (hValue : r = m * 10 ^ w) :
    m * 10 ^ w.toNat < 10 ^ 15 := by
  have hDigits := hShort.digits
  have hFraction := hShort.fraction
  rcases le_or_gt 0 w with hInteger | hPlaces
  · have hBound : r < 10 ^ 15 := by
      have hCast : (c : ℚ) < 10 ^ 15 := by exact_mod_cast hDigits
      rw [hShort.eq]
      refine lt_of_le_of_lt (mul_le_of_le_one_right ?_ ?_) hCast
      · positivity
      · exact zpow_le_one_of_nonpos₀ (by norm_num) hFraction
    rw [hValue, ← Int.toNat_of_nonneg hInteger, zpow_natCast]
      at hBound
    exact_mod_cast hBound
  · have hFew := (hShort.digits_le hM hValue).2
    rw [show w.toNat = 0 by omega]
    omega

/- The leading digit is at most the fifteenth before the point. -/
theorem length_le
    (hShort : IsShort r c unit)
    {m : Nat}
    {w : ℤ}
    (hM : ¬ 10 ∣ m)
    (hValue : r = m * 10 ^ w) :
    w + (digitChars m).length ≤ 15 := by
  have hLength :
      (digitChars (m * 10 ^ w.toNat)).length ≤ 15 :=
    (Nat.length_toDigits_le_iff (by decide) (by decide)).mpr
      (hShort.integer_lt hM hValue)
  rw [digitChars_mul_pow (pos_of_not_dvd hM), List.length_append,
    List.length_replicate] at hLength
  omega

/-
  The shortest digits of the double are those of the
  decimal, without zeros at the end.
-/
theorem shortest_eq
    (hShort : IsShort r c unit)
    (hX : nearest? negative r = some x) :
    ∃ m : ℕ, ∃ w : ℤ,
      ¬ 10 ∣ m ∧ r = m * 10 ^ w ∧ x.shortest = shortestOf m w := by
  rcases hShort.search_eq hX with ⟨k, w, hPos, hValue, hSearch⟩
  have hZero : x.isZero = false := by
    have hMagnitude := hShort.magnitude_pos hX
    refine Bool.eq_false_iff.mpr fun hIsZero => ?_
    unfold isZero at hIsZero
    rw [beq_iff_eq] at hIsZero
    unfold magnitude at hMagnitude
    rw [hIsZero, Nat.cast_zero, zero_mul] at hMagnitude
    exact lt_irrefl _ hMagnitude
  rcases exists_shortestOf hPos w with
    ⟨m, v, hDivides, hSame, hDigits⟩
  refine ⟨m, v, hDivides, hValue.trans hSame, ?_⟩
  rw [shortest_eq_search hZero, hSearch]
  exact hDigits

end IsShort

end Binary64

end OrderDesk
