import OrderDesk.Proofs.Decimal.Quotient
import OrderDesk.Proofs.Order.Replay
import OrderDesk.RiskGate

/-
  This file proves when an order that has passed the gate
  can be booked as filled at the price the gate valued it
  at. The gate has computed the product of quantity and
  price; booking divides the product by the quantity again.
  A product that had to be rounded up can lead out of range
  on the way back, next to the largest price only.

  Key definitions include:
    * `SubmitOrder.placement`
    * `SubmitOrder.execution`
    * `Order.placed`

  Key theorems include:
    * `Decimal.mul?_exact_or_abs_le`
    * `Decimal.ne_and_lt_of_mul?_overflows`
    * `Order.fillTotals?_placed`
    * `RiskGate.notional_of_check`
    * `RiskGate.execution_of_check`
-/

namespace OrderDesk

------------------------------------------------------------
-- Rounded Products
------------------------------------------------------------

namespace Decimal

variable {q p n : Decimal}

theorem smallest_le_value
    (hPos : 0 < q.value) :
    1 / 10 ^ 28 ≤ q.value := by
  have hTen : (0 : ℚ) < 10 ^ q.scale := by positivity
  have hCoefficient : (1 : ℚ) ≤ q.coefficient := by
    unfold value at hPos
    have hCast : (0 : ℚ) < q.coefficient := by
      rwa [div_pos_iff_of_pos_right hTen] at hPos
    exact_mod_cast hCast
  have hScale : (10 : ℚ) ^ q.scale ≤ 10 ^ 28 :=
    pow_le_pow_right₀ (by norm_num) q.scale_le
  unfold value
  calc
    (1 : ℚ) / 10 ^ 28 ≤ 1 / 10 ^ q.scale := by gcongr
    _ ≤ q.coefficient / 10 ^ q.scale := by gcongr

/-
  A product that had to be rounded keeps so many digits that
  a unit of its last one is at most ten times the positive
  factor.
-/
theorem unit_le_of_rounds
    {k : Nat}
    (hPos : 0 < q.value)
    (hRounds :
      Rounds (q.coefficient * p.coefficient)
        (q.scale + p.scale) k n)
    (hK : 0 < k) :
    1 / 10 ^ n.scale ≤ 10 * q.value := by
  have hTen : (0 : ℚ) < 10 ^ n.scale := by positivity
  by_cases hScale : n.scale < 28
  · have hLarge := hRounds.large_of_pos hScale hK
    have hCast :
        (2 ^ 97 - 1 : ℚ) * 10 ^ k ≤
          20 * (q.coefficient * p.coefficient).natAbs := by
      have hNat := Nat.cast_le (α := ℚ) |>.mpr hLarge
      push_cast at hNat
      norm_num at hNat ⊢
      exact hNat
    have hExact :=
      Rounds.abs_exact (q.coefficient * p.coefficient)
        (q.scale + p.scale)
    rw [mul_coefficient_div, abs_mul, abs_of_pos hPos,
      ← hRounds.scale_add, pow_add,
      eq_div_iff (by positivity)] at hExact
    have hBound :
        q.value * |p.value| ≤ q.value * (2 ^ 96 - 1) :=
      mul_le_mul_of_nonneg_left p.abs_value_le_largest hPos.le
    rw [← hExact] at hCast
    have hTenK : (0 : ℚ) < 10 ^ k := by positivity
    have hUnit :
        (2 ^ 97 - 1 : ℚ) ≤
          20 * (q.value * |p.value|) * 10 ^ n.scale := by
      refine le_of_mul_le_mul_right ?_ hTenK
      linarith
    have hScaled :=
      mul_le_mul_of_nonneg_right hBound hTen.le
    rw [div_le_iff₀ hTen]
    have hProduct : 0 < q.value * 10 ^ n.scale := by positivity
    linarith
  · have hFull : n.scale = 28 := by
      have hLe := n.scale_le
      omega
    rw [hFull]
    have hSmallest := smallest_le_value hPos
    linarith

/-
  A product with a positive factor is exact, or as large as
  if the other factor were off by at most five.
-/
theorem mul?_exact_or_abs_le
    (hPos : 0 < q.value)
    (hMul : q.mul? p = some n) :
    n.value = q.value * p.value ∨
      |n.value| ≤ q.value * (|p.value| + 5) := by
  rcases mul?_cases hMul with hZero | ⟨k, hRounds⟩
  · right
    rw [hZero, abs_zero]
    positivity
  · rcases Nat.eq_zero_or_pos k with hK | hK
    · left
      subst hK
      rw [hRounds.value_eq, mul_coefficient_div]
    · right
      have hUnit := unit_le_of_rounds hPos hRounds hK
      have hHalf := hRounds.abs_value_le_add_half
      rw [mul_coefficient_div, abs_mul, abs_of_pos hPos] at hHalf
      have hUnitHalf :
          (1 : ℚ) / 2 / 10 ^ n.scale = 1 / 10 ^ n.scale / 2 := by
        ring
      rw [hUnitHalf] at hHalf
      linarith

/-
  A product that its positive factor leads out of range again
  was rounded, and the other factor is next to the largest
  decimal.
-/
theorem ne_and_lt_of_mul?_overflows
    (hPos : 0 < q.value)
    (hMul : q.mul? p = some n)
    (hOverflow : (2 ^ 97 - 1) * q.value ≤ 2 * |n.value|) :
    n.value ≠ q.value * p.value ∧ 2 ^ 96 - 6 < |p.value| := by
  have hInexact : n.value ≠ q.value * p.value := by
    intro hExact
    rw [hExact, abs_mul, abs_of_pos hPos] at hOverflow
    have hLargest := p.abs_value_le_largest
    nlinarith
  refine ⟨hInexact, ?_⟩
  rcases mul?_exact_or_abs_le hPos hMul with hExact | hNear
  · exact absurd hExact hInexact
  · by_contra hPrice
    rw [not_lt] at hPrice
    have hBound :
        q.value * (|p.value| + 5) ≤
          q.value * (2 ^ 96 - 6 + 5) := by
      gcongr
    linarith

end Decimal

------------------------------------------------------------
-- Placed Orders
------------------------------------------------------------

namespace SubmitOrder

/- The events that take a new order to the book of the venue. -/
def placement
    (command : SubmitOrder)
    (venueOrderId : String) : List OrderEvent :=
  [⟨command.orderId, .submitted⟩,
    ⟨command.orderId, .accepted venueOrderId⟩]

/- The event that the whole order was executed at one price. -/
def execution
    (command : SubmitOrder)
    (price : Decimal) : OrderEvent :=
  ⟨command.orderId, .filled ⟨command.quantity, price⟩⟩

end SubmitOrder

namespace Order

/- A new order after its placement. -/
def placed
    (command : SubmitOrder)
    (venueOrderId : String) : Order :=
  { Order.new command with
    venueOrderId := some venueOrderId
    state := .accepted
    history := command.placement venueOrderId }

variable {command : SubmitOrder} {price notional : Decimal}

theorem replay_placement
    (command : SubmitOrder)
    (venueOrderId : String) :
    (Order.new command).replay (command.placement venueOrderId) =
      .ok (placed command venueOrderId) :=
  rfl

/-
  The accounts of a placed order that is executed as a
  whole: nothing was executed before, so that the average is
  the product over the quantity.
-/
theorem fillTotals?_placed
    (venueOrderId : String)
    (hQuantity : 0 < command.quantity)
    (hNotional : command.quantity.mul? price = some notional) :
    (placed command venueOrderId).fillTotals?
        ⟨command.quantity, price⟩ =
      (notional.div? command.quantity).map fun average =>
        (command.quantity, some average) := by
  have hPrevious :
      ((placed command venueOrderId).average.getD 0).mul?
          (placed command venueOrderId).filled =
        some 0 :=
    Decimal.zero_mul? 0
  have hFilled :
      (placed command venueOrderId).filled.add?
          command.quantity =
        some command.quantity :=
    Decimal.zero_add? command.quantity
  unfold fillTotals?
  simp only [hPrevious, hFilled, hNotional, Decimal.zero_add?,
    Option.bind_eq_bind, Option.bind_some, if_pos hQuantity]
  cases notional.div? command.quantity <;> rfl

theorem apply_execution_placed
    (command : SubmitOrder)
    (venueOrderId : String)
    (price : Decimal) :
    (placed command venueOrderId).apply (command.execution price) =
      match (placed command venueOrderId).fillTotals?
          ⟨command.quantity, price⟩ with
      | some totals =>
          .ok ((placed command venueOrderId).advance
            (command.execution price) .filled totals)
      | none =>
          .error (.fillOverflow ⟨command.quantity, price⟩) := by
  have hNext :
      (placed command venueOrderId).state.next?
          (command.execution price).kind =
        some .filled :=
    rfl
  unfold apply
  rw [hNext]
  simp only [totalsAfter, SubmitOrder.execution, Occurrence.fill?]
  cases (placed command venueOrderId).fillTotals?
      ⟨command.quantity, price⟩ <;> rfl

end Order

------------------------------------------------------------
-- Orders That Passed The Gate
------------------------------------------------------------

namespace RiskGate

variable {gate : RiskGate} {command : SubmitOrder}
variable {price : Decimal}

/-
  The gate has seen a positive quantity, and the product of
  quantity and price is in range.
-/
theorem notional_of_check
    (hCheck : gate.check command = .ok ())
    (hPrice : gate.valuation? command = some price) :
    0 < command.quantity ∧
      ∃ notional, command.quantity.mul? price = some notional := by
  rcases check_eq_ok_iff.mp hCheck with
    ⟨_, hQuantity, _, hNotional⟩
  constructor
  · rw [Decimal.le_iff_value_le] at hQuantity
    rw [Decimal.lt_iff_value_lt]
    exact not_le.mp hQuantity
  · unfold checkNotional at hNotional
    rw [hPrice] at hNotional
    dsimp only at hNotional
    split at hNotional
    · cases hNotional
    · rename_i notional hProduct
      exact ⟨notional, hProduct⟩

/-
  An order that has passed the gate can be placed. Executed
  as a whole at the price the gate valued it at, it is
  filled and its accounts hold what the order asked for,
  unless the gate's own product, divided by the quantity
  again, is half a unit above the largest decimal. In that
  case the execution is refused. It takes a product that was
  rounded and a price next to the largest one.
-/
theorem execution_of_check
    (venueOrderId : String)
    (hCheck : gate.check command = .ok ())
    (hPrice : gate.valuation? command = some price) :
    ∃ order notional,
      (Order.new command).replay
          (command.placement venueOrderId) = .ok order ∧
        command.quantity.mul? price = some notional ∧
          ((2 ^ 97 - 1) * command.quantity.value ≤
              2 * |notional.value| →
            order.apply (command.execution price) =
                .error
                  (.fillOverflow ⟨command.quantity, price⟩) ∧
              notional.value ≠
                  command.quantity.value * price.value ∧
                2 ^ 96 - 6 < |price.value|) ∧
          (2 * |notional.value| <
              (2 ^ 97 - 1) * command.quantity.value →
            ∃ filled average,
              order.apply (command.execution price) =
                  .ok filled ∧
                notional.div? command.quantity =
                    some average ∧
                  filled.state = .filled ∧
                    filled.filled = command.quantity ∧
                      filled.average = some average) := by
  rcases notional_of_check hCheck hPrice with
    ⟨hQuantity, notional, hNotional⟩
  have hPos : 0 < command.quantity.value := by
    rwa [Decimal.lt_iff_value_lt, Decimal.value_zero]
      at hQuantity
  have hTotals :=
    Order.fillTotals?_placed venueOrderId hQuantity hNotional
  have hApply :=
    Order.apply_execution_placed command venueOrderId price
  have hQuotient :
      notional.div? command.quantity = none ↔
        (2 ^ 97 - 1) * command.quantity.value ≤
          2 * |notional.value| := by
    rw [Decimal.div?_eq_none_iff hPos.ne', abs_of_pos hPos]
  refine
    ⟨Order.placed command venueOrderId, notional,
      Order.replay_placement command venueOrderId, hNotional,
      ?_, ?_⟩
  · intro hOverflow
    rw [hTotals, hQuotient.mpr hOverflow] at hApply
    exact
      ⟨hApply,
        Decimal.ne_and_lt_of_mul?_overflows hPos hNotional
          hOverflow⟩
  · intro hRange
    cases hAverage : notional.div? command.quantity with
    | none =>
        exact absurd (hQuotient.mp hAverage) (not_le.mpr hRange)
    | some average =>
        rw [hTotals, hAverage] at hApply
        exact ⟨_, average, hApply, rfl, rfl, rfl, rfl⟩

/- The largest price. -/
def largestPrice : Decimal :=
  Decimal.ofNat 79228162514264337593543950335

/- A gate that lets single units pass, at any price. -/
def unitGate : RiskGate :=
  RiskGate.new
    ⟨Decimal.ofNat 1 Decimal.one_lt_twoTo, largestPrice⟩ none

/- A unit for a hundred. -/
def unitOrder : SubmitOrder where
  orderId := OrderId.ofNat 1
  symbol := Symbol.ofText "btc"
  side := .buy
  orderType := .limit
  quantity := Decimal.ofNat 1 Decimal.one_lt_twoTo
  price := some (Decimal.ofNat 100 Decimal.hundred_lt_twoTo)

/- The gate lets the unit pass, and its execution is booked. -/
theorem execution_of_check_unitOrder :
    unitGate.check unitOrder = .ok () ∧
      unitGate.valuation? unitOrder =
          some (Decimal.ofNat 100) ∧
        ∃ order filled,
          (Order.new unitOrder).replay
              (unitOrder.placement "V") = .ok order ∧
            order.apply
                (unitOrder.execution (Decimal.ofNat 100)) =
              .ok filled ∧
            filled.state = .filled ∧
              filled.filled = unitOrder.quantity := by
  have hCheck : unitGate.check unitOrder = .ok () := by
    decide +kernel
  have hPrice :
      unitGate.valuation? unitOrder =
        some (Decimal.ofNat 100) := by
    decide +kernel
  have hMul :
      unitOrder.quantity.mul? (Decimal.ofNat 100) =
        some (Decimal.ofNat 100) := by
    decide +kernel
  rcases execution_of_check "V" hCheck hPrice with
    ⟨order, notional, hReplay, hNotional, _, hBooked⟩
  rw [hMul] at hNotional
  cases hNotional
  rcases hBooked (by
      norm_num [Decimal.value, Decimal.ofNat, unitOrder]) with
    ⟨filled, average, hApply, _, hState, hFilled, _⟩
  exact
    ⟨hCheck, hPrice, order, filled, hReplay, hApply, hState,
      hFilled⟩

/- Nine tenths of a unit at the largest price. -/
def dearOrder : SubmitOrder :=
  { unitOrder with
    quantity := ⟨9, 1, by decide, by decide⟩
    price := some largestPrice }

/-
  An order that passes every check, and whose execution at
  its own price is refused nevertheless, so that it stays
  open: the product was rounded up by a half.
-/
theorem dearOrder_execution_refused :
    unitGate.paused = none ∧
      dearOrder.validate = .ok () ∧
        unitGate.check dearOrder = .ok () ∧
          unitGate.valuation? dearOrder = some largestPrice ∧
            (Order.new dearOrder).replay
                (dearOrder.placement "V") =
              .ok (Order.placed dearOrder "V") ∧
            (Order.placed dearOrder "V").apply
                (dearOrder.execution largestPrice) =
              .error
                (.fillOverflow
                  ⟨dearOrder.quantity, largestPrice⟩) ∧
            (Order.placed dearOrder "V").isOpen = true := by
  have hNotional :
      dearOrder.quantity.mul? largestPrice =
        some ⟨71305346262837903834189555302, 0,
          by decide, by decide⟩ := by
    decide +kernel
  have hTotals :=
    Order.fillTotals?_placed "V" (by decide +kernel) hNotional
  have hQuotient :
      (⟨71305346262837903834189555302, 0, by decide,
          by decide⟩ : Decimal).div? dearOrder.quantity =
        none := by
    rw [Decimal.div?_eq_none_iff]
    · norm_num [Decimal.value, dearOrder]
    · norm_num [Decimal.value, dearOrder]
  have hApply :=
    Order.apply_execution_placed dearOrder "V" largestPrice
  rw [hTotals, hQuotient] at hApply
  exact
    ⟨rfl, by decide +kernel, by decide +kernel,
      by decide +kernel, Order.replay_placement dearOrder "V",
      hApply, rfl⟩

end RiskGate

end OrderDesk
