import OrderDesk.Proofs.Decimal.Plain
import OrderDesk.Proofs.Json.Numeral
import OrderDesk.Proofs.Json.Record
import OrderDesk.Wire.Order

/-
  This file proves which decimals are read back from the
  numbers that stand for them. A decimal is written as the
  double nearest to it, so it may come back as another
  decimal, or not at all. With at most 15 digits and at most
  22 places it comes back with its value.

  With more digits it may be altered, as the text of an
  integer has a zero behind the point, and ten times the
  integer need not be a double. With more places it may be
  altered as well, as the power of ten by which the digits
  are divided is not a double.

  Key definitions include:
    * `Wire.Survives`
    * `Decimal.Survives`
    * `Decimal.IsOrdinary`

  Key theorems include:
    * `Decimal.survives_of_isOrdinary`
-/

namespace OrderDesk

------------------------------------------------------------
-- Reading Back
------------------------------------------------------------

namespace Wire

/-
  The value that is decoded from the text of a value is the
  same again.
-/
def Survives
    {α : Type}
    (encode : α → Json)
    (read : Json → Option α)
    (Same : α → α → Prop)
    (a : α) : Prop :=
  ∃ b,
    decode (fun j => wellFormed (read j)) (encode a).toText = .ok b ∧
      Same b a

/- What is decoded from the text of a value is read of the value. -/
theorem survives_iff
    {α : Type}
    {encode : α → Json}
    {read : Json → Option α}
    {Same : α → α → Prop}
    {a : α}
    (hProper : (encode a).IsProper) :
    Survives encode read Same a ↔
      ∃ b, read (encode a) = some b ∧ Same b a := by
  unfold Survives
  rw [decode_toText hProper]
  cases read (encode a) with
  | none => simp [wellFormed]
  | some b => simp [wellFormed]

end Wire

namespace Decimal

open Binary64

/- The decimal is read back with its value. -/
abbrev Survives
    (a : Decimal) : Prop :=
  Wire.Survives toJson ofJson? SameValue a

/-
  The decimal has at most 15 digits, at most 22 of them
  behind the point. Zeros at the end of its places do not
  count.
-/
def IsOrdinary
    (a : Decimal) : Prop :=
  ∃ c : ℤ, ∃ s : ℕ,
    c.natAbs < 10 ^ 15 ∧ s ≤ 22 ∧ a.value = c / 10 ^ s

theorem isProper_toJson
    (a : Decimal) :
    a.toJson.IsProper :=
  Numeral.isProper_ofBinary64 _

theorem toJson_ne_null
    (a : Decimal) :
    a.toJson ≠ Json.null :=
  nofun

------------------------------------------------------------
-- Through A Double
------------------------------------------------------------

theorem toBinary64?_eq
    (a : Decimal) :
    a.toBinary64? =
      nearest? (decide (a.coefficient < 0)) |a.value| := by
  unfold toBinary64?
  rw [ofRatio?_eq_nearest? _ _ (tenTo_pos _), abs_value,
    tenTo_eq_pow]
  push_cast
  rfl

/- The decimal of the shortest digits of a double. -/
theorem exists_ofBinary64?
    {r : ℚ}
    {c : Nat}
    {unit : ℤ}
    (hShort : IsShort r c unit)
    {negative : Bool}
    {x : Binary64}
    (hX : nearest? negative r = some x) :
    ∃ b, ofBinary64? x = some b ∧
      b.value = if negative then -r else r := by
  rcases hShort.shortest_eq hX with ⟨m, w, hM, hValue, hShortest⟩
  have hSmall := hShort.integer_lt hM hValue
  have hCoarse := (hShort.digits_le hM hValue).1
  have hPlaces := hShort.places
  have hSign := negative_of_nearest? hX
  have hNumber :
      r = (m * 10 ^ w.toNat : ℕ) / 10 ^ (-w).toNat := by
    have hPower := zpow_eq_div (b := 10) (by decide) w
    rw [Nat.cast_ofNat] at hPower
    rw [hValue, hPower]
    push_cast
    rw [mul_div_assoc]
  have hFits : m * 10 ^ w.toNat < twoTo 96 :=
    lt_trans hSmall (by decide)
  unfold ofBinary64?
  rw [hShortest, hSign]
  have hSplits := splits_positional hM w
  have hLength := hSplits.places
  dsimp only
  rw [ofPlainChars?_eq negative hSplits.whole hSplits.nonempty
    hSplits.fraction hSplits.number hFits (by omega), hLength]
  have hRange :
      (if negative then -((m * 10 ^ w.toNat : ℕ) : ℤ)
        else (m * 10 ^ w.toNat : ℕ)).natAbs < twoTo 96 := by
    split <;> omega
  rcases exists_ofParts? hRange (s := (-w).toNat) (by omega) with
    ⟨b, hParts, hB⟩
  refine ⟨b, hParts, ?_⟩
  rw [hB, hNumber]
  cases negative with
  | true =>
      simp only [if_true]
      push_cast
      rw [neg_div]
  | false =>
      simp only [Bool.false_eq_true, if_false]
      push_cast
      rfl

theorem value_eq_abs
    (a : Decimal) :
    a.value =
      if decide (a.coefficient < 0) then -|a.value| else |a.value| := by
  have hTen : (0 : ℚ) < 10 ^ a.scale := by positivity
  by_cases hSign : a.coefficient < 0
  · have hCast : (a.coefficient : ℚ) < 0 := by exact_mod_cast hSign
    have hNegative : a.value < 0 := div_neg_of_neg_of_pos hCast hTen
    rw [if_pos (decide_eq_true hSign), abs_of_neg hNegative, neg_neg]
  · have hCast : (0 : ℚ) ≤ a.coefficient := by
      exact_mod_cast Int.not_lt.mp hSign
    have hPositive : 0 ≤ a.value := div_nonneg hCast hTen.le
    rw [if_neg (by simpa using hSign), abs_of_nonneg hPositive]

/- A decimal that is short is read back with its value. -/
theorem exists_ofJson?_toJson
    {a : Decimal}
    {c : Nat}
    {unit : ℤ}
    (hShort : IsShort |a.value| c unit) :
    ∃ b, ofJson? a.toJson = some b ∧ b.SameValue a := by
  have hBound : |a.value| < 2 ^ (1023 : ℤ) := by
    refine lt_of_le_of_lt a.abs_value_le_largest ?_
    calc
      (2 ^ 96 - 1 : ℚ) < 2 ^ (96 : ℤ) := by norm_num
      _ ≤ 2 ^ (1023 : ℤ) :=
        zpow_le_zpow_right₀ one_le_two (by decide)
  rcases exists_nearest? (decide (a.coefficient < 0))
    (abs_nonneg a.value) hBound with ⟨x, hX⟩
  rcases exists_ofBinary64? hShort hX with ⟨b, hB, hValue⟩
  refine ⟨b, ?_, ?_⟩
  · unfold toJson ofJson?
    rw [toBinary64?_eq, hX, Option.getD_some]
    dsimp only
    rw [Numeral.number?_ofBinary64 hShort hX, Option.bind_some]
    exact hB
  · rw [sameValue_iff_value_eq, hValue, ← value_eq_abs]

/- A decimal that is zero is read back as zero. -/
theorem ofJson?_toJson_of_isZero
    {a : Decimal}
    (hZero : a.coefficient = 0) :
    ofJson? a.toJson = some 0 := by
  have hDouble : a.toBinary64? = some (zero false) := by
    unfold toBinary64?
    rw [hZero]
    rfl
  have hRead :
      ofJson? (Json.number (Numeral.ofBinary64 (zero false))) =
        some 0 := by
    decide +kernel
  unfold toJson
  rw [hDouble]
  exact hRead

/- An ordinary decimal is read back with its value. -/
theorem survives_of_isOrdinary
    {a : Decimal}
    (hOrdinary : a.IsOrdinary) :
    a.Survives := by
  rcases hOrdinary with ⟨c, s, hDigits, hPlaces, hValue⟩
  refine (Wire.survives_iff a.isProper_toJson).mpr ?_
  rcases eq_or_ne c 0 with rfl | hC
  · have hZero : a.IsZero := by
      rw [isZero_iff_value_eq_zero, hValue]
      simp
    refine ⟨0, ofJson?_toJson_of_isZero hZero, ?_⟩
    rw [sameValue_iff_value_eq, hValue]
    simp
  · have hShort : IsShort |a.value| c.natAbs (-(s : ℤ)) := by
      refine ⟨?_, by omega, hDigits, by omega, by omega⟩
      have hTen : (0 : ℚ) < 10 ^ s := by positivity
      rw [hValue, abs_div, abs_of_pos hTen, zpow_neg, zpow_natCast,
        Nat.cast_natAbs, Int.cast_abs]
      rfl
    exact exists_ofJson?_toJson hShort

/- An integer of 16 digits is altered. -/
example :
    ofJson? (ofNat 8000000000000020).toJson =
      some (ofNat 8000000000000019) := by
  decide +kernel

/- A decimal of 12 digits with 23 places is altered. -/
example :
    ofJson? (toJson ⟨390320983741, 23, by decide, by decide⟩) =
      some ⟨3903209837410001, 27, by decide, by decide⟩ := by
  decide +kernel

end Decimal

end OrderDesk
