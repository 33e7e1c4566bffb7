import OrderDesk.Proofs.Decimal.Product
import OrderDesk.Proofs.Order.Booking

/-
  This file compares the limit on the value of an order with
  the exact value. The gate looks at the rounded product of
  quantity and price only. It never turns down an order whose
  exact value is within the limit, and where it lets a larger
  one pass, rounding has led to the limit itself.

  Key theorems include:
    * `RiskGate.checkNotional_eq_ok_iff`
    * `RiskGate.check_eq_ok_iff_notional_le`
    * `RiskGate.check_of_exact_le`
    * `RiskGate.check_against_exact`
-/

namespace OrderDesk

namespace RiskGate

variable {gate : RiskGate} {command : SubmitOrder}
variable {price : Decimal}

/- An order passes if it has no value, or one within the limit. -/
theorem checkNotional_eq_ok_iff :
    gate.checkNotional command = .ok () ↔
      ∀ price ∈ gate.valuation? command,
        ∃ notional,
          command.quantity.mul? price = some notional ∧
            notional ≤ gate.limits.maxNotional := by
  unfold checkNotional
  cases gate.valuation? command with
  | none => simp
  | some price =>
      simp only [Option.mem_def, Option.some.injEq, forall_eq']
      cases command.quantity.mul? price with
      | none => simp
      | some notional =>
          simp only [Option.some.injEq, exists_eq_left']
          rw [← Decimal.not_lt_iff]
          split <;> simp_all

/- An open gate asks for the value of an order of an allowed quantity. -/
theorem check_eq_checkNotional
    (hOpen : gate.paused = none)
    (hPositive : 0 < command.quantity)
    (hQuantity : command.quantity ≤ gate.limits.maxQuantity) :
    gate.check command = gate.checkNotional command := by
  have hNotPositive : ¬ command.quantity ≤ 0 :=
    (Decimal.not_le_iff _ _).mpr hPositive
  have hNotLarge : ¬ gate.limits.maxQuantity < command.quantity :=
    (Decimal.not_lt_iff _ _).mpr hQuantity
  unfold check
  simp only [hOpen, hNotPositive, hNotLarge, if_false]

/- An order of an allowed quantity passes if its product does. -/
theorem check_eq_ok_iff_notional_le
    (hOpen : gate.paused = none)
    (hPositive : 0 < command.quantity)
    (hQuantity : command.quantity ≤ gate.limits.maxQuantity)
    (hPrice : gate.valuation? command = some price) :
    gate.check command = .ok () ↔
      ∃ notional,
        command.quantity.mul? price = some notional ∧
          notional ≤ gate.limits.maxNotional := by
  rw [check_eq_checkNotional hOpen hPositive hQuantity,
    checkNotional_eq_ok_iff, hPrice]
  simp

/- An order of an allowed quantity is refused if its value overflows. -/
theorem check_of_isOutOfRange
    (hOpen : gate.paused = none)
    (hPositive : 0 < command.quantity)
    (hQuantity : command.quantity ≤ gate.limits.maxQuantity)
    (hPrice : gate.valuation? command = some price)
    (hRange :
      Decimal.IsOutOfRange (command.quantity.value * price.value)) :
    gate.check command =
      .error (.notionalOverflow command.quantity price) := by
  have hProduct := Decimal.mul?_eq_none_iff.mpr hRange
  rw [check_eq_checkNotional hOpen hPositive hQuantity]
  unfold checkNotional
  simp only [hPrice, hProduct]

/- A value within the limit passes: rounding does not lead over it. -/
theorem check_of_exact_le
    (hOpen : gate.paused = none)
    (hPositive : 0 < command.quantity)
    (hQuantity : command.quantity ≤ gate.limits.maxQuantity)
    (hPrice : gate.valuation? command = some price)
    (hPricePositive : 0 < price)
    (hLe :
      command.quantity.value * price.value ≤
        gate.limits.maxNotional.value) :
    gate.check command = .ok () := by
  rw [check_eq_ok_iff_notional_le hOpen hPositive hQuantity hPrice]
  rw [Decimal.pos_iff_value_pos] at hPositive hPricePositive
  have hExact := mul_pos hPositive hPricePositive
  have hInRange :
      command.quantity.mul? price ≠ none := by
    rw [ne_eq, Decimal.mul?_eq_none_iff]
    apply Decimal.not_isOutOfRange_of_abs_le
    rw [abs_of_pos hExact]
    exact
      (hLe.trans (le_abs_self _)).trans
        gate.limits.maxNotional.abs_value_le_largest
  rcases Option.ne_none_iff_exists'.mp hInRange with
    ⟨notional, hNotional⟩
  refine ⟨notional, hNotional, ?_⟩
  rw [Decimal.le_iff_value_le]
  exact Decimal.mul?_value_le hNotional hLe

/-
  The gate against exact arithmetic. An order of an allowed
  quantity and at a positive price passes whenever its exact
  value is within the limit. If it passes with a larger one,
  the rounded product is the limit, so that the excess is at
  most half a unit of the last digit of the product. A
  product of zero counts all digits that there are.
-/
theorem check_against_exact
    (hOpen : gate.paused = none)
    (hPositive : 0 < command.quantity)
    (hQuantity : command.quantity ≤ gate.limits.maxQuantity)
    (hPrice : gate.valuation? command = some price)
    (hPricePositive : 0 < price) :
    (command.quantity.value * price.value ≤
        gate.limits.maxNotional.value →
      gate.check command = .ok ()) ∧
    (gate.check command = .ok () →
      gate.limits.maxNotional.value <
          command.quantity.value * price.value →
        ∃ notional,
          command.quantity.mul? price = some notional ∧
            notional.SameValue gate.limits.maxNotional ∧
              command.quantity.value * price.value -
                    gate.limits.maxNotional.value ≤
                  1 / 2 / 10 ^ notional.scale ∧
                (notional.IsZero →
                  command.quantity.value * price.value -
                      gate.limits.maxNotional.value ≤
                    1 / 2 / 10 ^ 28)) := by
  refine
    ⟨check_of_exact_le hOpen hPositive hQuantity hPrice
      hPricePositive, ?_⟩
  intro hCheck hLt
  rw [check_eq_ok_iff_notional_le hOpen hPositive hQuantity hPrice]
    at hCheck
  rcases hCheck with ⟨notional, hNotional, hLe⟩
  have hSame :=
    Decimal.sameValue_of_mul?_le_of_lt hNotional hLe hLt
  have hValue := (Decimal.sameValue_iff_value_eq _ _).mp hSame
  rw [Decimal.pos_iff_value_pos] at hPositive hPricePositive
  have hExact := mul_pos hPositive hPricePositive
  have hSign : 0 ≤ notional.value := by
    rw [← Decimal.value_zero]
    apply Decimal.le_mul?_value hNotional
    rw [Decimal.value_zero]
    exact hExact.le
  have hHalf := Decimal.abs_mul_value_le_add_half hNotional
  rw [abs_of_pos hExact, abs_of_nonneg hSign, hValue] at hHalf
  refine ⟨notional, hNotional, hSame, by linarith, ?_⟩
  intro hZero
  have hTiny := Decimal.abs_mul_value_le_of_isZero hNotional hZero
  rw [abs_of_pos hExact] at hTiny
  rw [Decimal.isZero_iff_value_eq_zero, hValue] at hZero
  linarith

/- Three units of the fifth digit at the largest price. -/
def tightOrder : SubmitOrder where
  orderId := OrderId.ofNat 1
  symbol := Symbol.ofText "btc"
  side := .buy
  orderType := .limit
  quantity := ⟨3, 5, by decide, by decide⟩
  price := some largestPrice

/- A gate whose limit is half a unit of the fourth digit lower. -/
def tightGate : RiskGate :=
  RiskGate.new
    ⟨Decimal.ofNat 1 Decimal.one_lt_twoTo,
      ⟨23768448754279301278063185100, 4, by decide, by decide⟩⟩
    none

/-
  The gate lets the order pass: its value, which is half a
  unit of the last digit over the limit, is rounded to the
  even neighbour.
-/
theorem check_against_exact_tightOrder :
    tightGate.check tightOrder = .ok () ∧
      tightOrder.quantity.value * largestPrice.value -
          tightGate.limits.maxNotional.value = 1 / 2 / 10 ^ 4 ∧
        ∃ notional,
          tightOrder.quantity.mul? largestPrice = some notional ∧
            notional.SameValue tightGate.limits.maxNotional ∧
              tightOrder.quantity.value * largestPrice.value -
                  tightGate.limits.maxNotional.value ≤
                1 / 2 / 10 ^ notional.scale := by
  have hCheck : tightGate.check tightOrder = .ok () := by
    decide +kernel
  have hExcess :
      tightOrder.quantity.value * largestPrice.value -
        tightGate.limits.maxNotional.value = 1 / 2 / 10 ^ 4 := by
    decide +kernel
  have hLt :
      tightGate.limits.maxNotional.value <
        tightOrder.quantity.value * largestPrice.value := by
    rw [← sub_pos, hExcess]
    norm_num
  have hOpen : tightGate.paused = none := rfl
  have hPositive : 0 < tightOrder.quantity := by
    decide +kernel
  have hQuantity :
      tightOrder.quantity ≤ tightGate.limits.maxQuantity := by
    decide +kernel
  have hPrice : tightGate.valuation? tightOrder = some largestPrice :=
    rfl
  have hPricePositive : 0 < largestPrice := by
    decide +kernel
  rcases
    (check_against_exact hOpen hPositive hQuantity hPrice
        hPricePositive).2
      hCheck hLt with
    ⟨notional, hNotional, hSame, hHalf, _⟩
  exact ⟨hCheck, hExcess, notional, hNotional, hSame, hHalf⟩

end RiskGate

end OrderDesk
