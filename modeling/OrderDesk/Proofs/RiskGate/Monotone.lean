import OrderDesk.Proofs.Decimal.Monotone
import OrderDesk.Proofs.RiskGate.Notional

/-
  This file proves that the gate is monotone: where an order
  passes, every order passes that asks for no more at no
  higher a price. Products are rounded, and the smaller one
  may be rounded at another scale, but never past the larger
  one. It follows that zeros at the end of a quantity or a
  price do not matter to the gate.

  Key definitions include:
    * `SubmitOrder.IsWithin`
    * `SubmitOrder.SameSize`
    * `RiskGate.IsMonotone`

  Key theorems include:
    * `RiskGate.checkNotional_of_le`
    * `RiskGate.isMonotone`
-/

namespace OrderDesk

------------------------------------------------------------
-- Comparing Orders
------------------------------------------------------------

namespace SubmitOrder

/-
  An order asks for something, for no more than another, and
  at no higher a price if they carry prices. Both do, or
  neither.
-/
structure IsWithin
    (order other : SubmitOrder) : Prop where
  quantity_pos : 0 < order.quantity
  quantity_le : order.quantity ≤ other.quantity
  price :
    Option.Rel (fun price price' => 0 < price ∧ price ≤ price')
      order.price other.price

/-
  Two orders ask for the same quantity at the same price,
  whatever the scales are that these are written at.
-/
structure SameSize
    (order other : SubmitOrder) : Prop where
  quantity : order.quantity.SameValue other.quantity
  price : Option.Rel Decimal.SameValue order.price other.price

theorem SameSize.symm
    {order other : SubmitOrder}
    (hSame : order.SameSize other) :
    other.SameSize order := by
  rcases hSame with ⟨hQuantity, hPrice⟩
  refine ⟨hQuantity.symm, ?_⟩
  generalize order.price = price at hPrice ⊢
  generalize other.price = price' at hPrice ⊢
  cases hPrice with
  | none => exact .none
  | some hPrice => exact .some hPrice.symm

end SubmitOrder

namespace RiskGate

variable {gate : RiskGate} {order other : SubmitOrder}

------------------------------------------------------------
-- Comparing Valuations
------------------------------------------------------------

/-
  Orders are valued at prices that compare as their own do,
  if the reference price so compares with itself.
-/
theorem valuation?_rel
    {r : Decimal → Decimal → Prop}
    (hReference : ∀ price ∈ gate.referencePrice, r price price)
    (hPrice : Option.Rel r order.price other.price) :
    Option.Rel r (gate.valuation? order) (gate.valuation? other) := by
  unfold valuation?
  generalize order.price = price at hPrice ⊢
  generalize other.price = price' at hPrice ⊢
  cases hPrice with
  | some hPrice => exact .some hPrice
  | none =>
      change Option.Rel r gate.referencePrice gate.referencePrice
      cases hGate : gate.referencePrice with
      | none => exact .none
      | some price => exact .some (hReference price hGate)

/-
  The value of an order passes if that of another does, and
  the exact value is not larger, in size neither.
-/
theorem checkNotional_of_le
    (hValuation :
      Option.Rel
        (fun price price' =>
          order.quantity.value * price.value ≤
              other.quantity.value * price'.value ∧
            |order.quantity.value * price.value| ≤
              |other.quantity.value * price'.value|)
        (gate.valuation? order) (gate.valuation? other))
    (hCheck : gate.checkNotional other = .ok ()) :
    gate.checkNotional order = .ok () := by
  rw [checkNotional_eq_ok_iff] at hCheck ⊢
  intro price hPrice
  rw [Option.mem_def] at hPrice
  cases hOther : gate.valuation? other with
  | none =>
      rw [hPrice, hOther] at hValuation
      cases hValuation
  | some price' =>
      rw [hPrice, hOther] at hValuation
      cases hValuation with
      | some hLe =>
          rcases hCheck price' hOther with
            ⟨notional', hNotional', hWithin⟩
          rcases
            Decimal.exists_mul?_eq_some_of_abs_le hNotional' hLe.2 with
            ⟨notional, hNotional⟩
          refine ⟨notional, hNotional, ?_⟩
          rw [Decimal.le_iff_value_le] at hWithin ⊢
          exact
            (Decimal.mul?_mono hNotional hNotional' hLe.1).trans
              hWithin

------------------------------------------------------------
-- The Gate Is Monotone
------------------------------------------------------------

/- An order that asks for no more than one that passes does so too. -/
theorem check_of_isWithin
    (hReference : ∀ price ∈ gate.referencePrice, 0 < price)
    (hWithin : order.IsWithin other)
    (hCheck : gate.check other = .ok ()) :
    gate.check order = .ok () := by
  rw [check_eq_ok_iff] at hCheck ⊢
  rcases hCheck with ⟨hOpen, _, hLarge, hNotional⟩
  have hPositive := hWithin.quantity_pos
  have hLe := hWithin.quantity_le
  rw [Decimal.not_lt_iff, Decimal.le_iff_value_le] at hLarge
  rw [Decimal.le_iff_value_le] at hLe
  refine ⟨hOpen, (Decimal.not_le_iff _ _).mpr hPositive, ?_, ?_⟩
  · rw [Decimal.not_lt_iff, Decimal.le_iff_value_le]
    exact hLe.trans hLarge
  · rw [Decimal.pos_iff_value_pos] at hPositive
    have hPrices :=
      valuation?_rel
        (fun price hPrice =>
          ⟨hReference price hPrice,
            (Decimal.le_iff_value_le _ _).mpr le_rfl⟩)
        hWithin.price
    refine checkNotional_of_le ?_ hNotional
    generalize gate.valuation? order = price at hPrices ⊢
    generalize gate.valuation? other = price' at hPrices ⊢
    cases hPrices with
    | none => exact .none
    | some hPrices =>
        rcases hPrices with ⟨hPricePositive, hPriceLe⟩
        rw [Decimal.pos_iff_value_pos] at hPricePositive
        rw [Decimal.le_iff_value_le] at hPriceLe
        have hProduct :=
          mul_le_mul hLe hPriceLe hPricePositive.le
            (hPositive.le.trans hLe)
        exact
          .some
            ⟨hProduct,
              abs_le_abs_of_nonneg
                (mul_pos hPositive hPricePositive).le hProduct⟩

/- Orders of the same size differ in nothing that the gate looks at. -/
theorem check_of_sameSize
    (hSame : order.SameSize other)
    (hCheck : gate.check other = .ok ()) :
    gate.check order = .ok () := by
  have hQuantity :=
    (Decimal.sameValue_iff_value_eq _ _).mp hSame.quantity
  rw [check_eq_ok_iff, Decimal.not_le_iff, Decimal.not_lt_iff,
    Decimal.pos_iff_value_pos, Decimal.le_iff_value_le] at hCheck ⊢
  rcases hCheck with ⟨hOpen, hPositive, hLarge, hNotional⟩
  rw [hQuantity]
  refine ⟨hOpen, hPositive, hLarge, ?_⟩
  have hReference :
      ∀ price ∈ gate.referencePrice, price.SameValue price :=
    fun price _ => (Decimal.sameValue_iff_value_eq price price).mpr rfl
  have hPrices := valuation?_rel hReference hSame.price
  refine checkNotional_of_le ?_ hNotional
  generalize gate.valuation? order = price at hPrices ⊢
  generalize gate.valuation? other = price' at hPrices ⊢
  cases hPrices with
  | none => exact .none
  | some hPrices =>
      rw [Decimal.sameValue_iff_value_eq] at hPrices
      refine .some ⟨?_, ?_⟩
      · rw [hQuantity, hPrices]
      · rw [hQuantity, hPrices]

/-
  What the gate makes of orders that can be compared. It
  lets an order pass if it lets one pass that asks for more,
  and of two orders of the same size it lets both pass or
  neither.
-/
structure IsMonotone
    (gate : RiskGate) : Prop where
  mono :
    ∀ order other : SubmitOrder,
      order.IsWithin other →
        gate.check other = .ok () → gate.check order = .ok ()
  congr :
    ∀ order other : SubmitOrder,
      order.SameSize other →
        (gate.check order = .ok () ↔ gate.check other = .ok ())

/-
  Every gate whose reference price is positive, if it has
  one, is monotone, whatever its limits are and whether it
  is open or not.
-/
theorem isMonotone
    (hReference : ∀ price ∈ gate.referencePrice, 0 < price) :
    gate.IsMonotone where
  mono _ _ hWithin hCheck :=
    check_of_isWithin hReference hWithin hCheck
  congr _ _ hSame :=
    ⟨check_of_sameSize hSame.symm, check_of_sameSize hSame⟩

/- A gate that values orders at the largest price. -/
def dearGate : RiskGate :=
  { tightGate with referencePrice := some largestPrice }

/-
  A market order for three units of the fifth digit: the
  gate rounds its value down to the limit.
-/
def marginalOrder : SubmitOrder :=
  { tightOrder with orderType := .market, price := none }

/- An order for a little less, with more digits. -/
def smallerOrder : SubmitOrder :=
  { marginalOrder with
    quantity := ⟨29999999, 12, by decide, by decide⟩ }

/- The first order with zeros at the end of its quantity. -/
def paddedOrder : SubmitOrder :=
  { marginalOrder with
    quantity := ⟨3000000, 11, by decide, by decide⟩ }

/- The gate lets the first order pass, and so the others. -/
theorem isMonotone_dearGate :
    (∀ price ∈ dearGate.referencePrice, 0 < price) ∧
      smallerOrder.IsWithin marginalOrder ∧
      paddedOrder.SameSize marginalOrder ∧
      dearGate.check marginalOrder = .ok () ∧
      dearGate.check smallerOrder = .ok () ∧
      dearGate.check paddedOrder = .ok () := by
  have hReference :
      ∀ price ∈ dearGate.referencePrice, 0 < price := by
    rintro price ⟨⟩
    decide +kernel
  have hWithin : smallerOrder.IsWithin marginalOrder :=
    ⟨by decide +kernel, by decide +kernel, .none⟩
  have hSame : paddedOrder.SameSize marginalOrder :=
    ⟨by decide +kernel, .none⟩
  have hCheck : dearGate.check marginalOrder = .ok () := by
    decide +kernel
  have hMonotone := isMonotone hReference
  exact
    ⟨hReference, hWithin, hSame, hCheck,
      hMonotone.mono _ _ hWithin hCheck,
      (hMonotone.congr _ _ hSame).mpr hCheck⟩

end RiskGate

end OrderDesk
