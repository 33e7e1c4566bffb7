import OrderDesk.Proofs.Decimal.Range
import OrderDesk.Proofs.Order.Replay

/-
  This file proves what the accounts of an order become when
  a fill is booked, and which fills cannot be booked.

  The order keeps its average price only. What it was
  executed for is the average times the executed quantity,
  the fill adds its own value to that, and the sum is divided
  by the new quantity.

  Key definitions include:
    * `Order.turnover?`
    * `Order.FillOverflows`
    * `Order.fillsIn`

  Key theorems include:
    * `Order.fillTotals?_eq_some_iff`
    * `Order.fillTotals?_eq_none_iff`
    * `Order.filled_of_apply`
-/

namespace OrderDesk

namespace Order

------------------------------------------------------------
-- What A Fill Leads To
------------------------------------------------------------

/- What an order is executed for once a fill has joined it. -/
def turnover?
    (order : Order)
    (fill : Fill) : Option Decimal :=
  ((order.average.getD 0).mul? order.filled).bind fun previous =>
    (fill.quantity.mul? fill.price).bind fun value =>
      previous.add? value

/- The average price after a fill, given the quantity by then. -/
def averageAfter?
    (order : Order)
    (turnover filled : Decimal) : Option (Option Decimal) :=
  if 0 < filled then
    (turnover.div? filled).map some
  else
    some order.average

variable {order next : Order}
variable {event : OrderEvent} {fill : Fill}

/- The accounts hold the new quantity and the new average. -/
theorem fillTotals?_eq
    (order : Order)
    (fill : Fill) :
    order.fillTotals? fill =
      (order.filled.add? fill.quantity).bind fun filled =>
        (order.turnover? fill).bind fun turnover =>
          (order.averageAfter? turnover filled).map fun average =>
            (filled, average) := by
  unfold fillTotals? turnover? averageAfter?
  simp only [Option.bind_eq_bind, Option.pure_def]
  cases (order.average.getD 0).mul? order.filled with
  | none => simp
  | some previous =>
      cases order.filled.add? fill.quantity with
      | none => simp
      | some filled =>
          cases fill.quantity.mul? fill.price with
          | none => simp
          | some value =>
              simp only [Option.bind_some]
              cases previous.add? value with
              | none => rfl
              | some turnover =>
                  simp only [Option.bind_some]
                  split
                  · cases turnover.div? filled <;> rfl
                  · rfl

/- A fill is booked when each of its steps has a result. -/
theorem fillTotals?_eq_some_iff
    {totals : Decimal × Option Decimal} :
    order.fillTotals? fill = some totals ↔
      order.filled.add? fill.quantity = some totals.1 ∧
        ∃ turnover,
          order.turnover? fill = some turnover ∧
            order.averageAfter? turnover totals.1 =
              some totals.2 := by
  rcases totals with ⟨filled, average⟩
  rw [fillTotals?_eq]
  simp only [Option.bind_eq_some_iff, Option.map_eq_some_iff,
    Prod.mk.injEq]
  constructor
  · rintro ⟨_, hFilled, turnover, hTurnover, _, hAverage, rfl, rfl⟩
    exact ⟨hFilled, turnover, hTurnover, hAverage⟩
  · rintro ⟨hFilled, turnover, hTurnover, hAverage⟩
    exact
      ⟨filled, hFilled, turnover, hTurnover, average, hAverage,
        rfl, rfl⟩

/-
  A fill cannot be booked when one of the five steps leads
  out of range: what the order was executed for so far, the
  new quantity, the value of the fill, the sum of both
  values, or, if the new quantity is positive, the average.
-/
inductive FillOverflows
    (order : Order)
    (fill : Fill) : Prop where
  | previous
      (hRange :
        Decimal.IsOutOfRange
          ((order.average.getD 0).value * order.filled.value))
  | quantity
      (hRange :
        Decimal.IsOutOfRange
          (order.filled.value + fill.quantity.value))
  | value
      (hRange :
        Decimal.IsOutOfRange
          (fill.quantity.value * fill.price.value))
  | turnover
      (previous value : Decimal)
      (hPrevious :
        (order.average.getD 0).mul? order.filled = some previous)
      (hValue : fill.quantity.mul? fill.price = some value)
      (hRange :
        Decimal.IsOutOfRange (previous.value + value.value))
  | average
      (filled turnover : Decimal)
      (hFilled :
        order.filled.add? fill.quantity = some filled)
      (hTurnover : order.turnover? fill = some turnover)
      (hPos : 0 < filled)
      (hRange :
        Decimal.IsOutOfRange (turnover.value / filled.value))

/- The turnover fails at one of its three steps. -/
theorem turnover?_eq_none_iff :
    order.turnover? fill = none ↔
      (order.average.getD 0).mul? order.filled = none ∨
        fill.quantity.mul? fill.price = none ∨
          ∃ previous value,
            (order.average.getD 0).mul? order.filled =
                some previous ∧
              fill.quantity.mul? fill.price = some value ∧
                previous.add? value = none := by
  unfold turnover?
  cases (order.average.getD 0).mul? order.filled with
  | none => simp
  | some previous =>
      cases fill.quantity.mul? fill.price <;> simp

/- The average fails by its division only. -/
theorem averageAfter?_eq_none_iff
    {turnover filled : Decimal} :
    order.averageAfter? turnover filled = none ↔
      0 < filled ∧
        Decimal.IsOutOfRange (turnover.value / filled.value) := by
  unfold averageAfter?
  by_cases hPos : 0 < filled
  · have hValue : filled.value ≠ 0 :=
      ((Decimal.pos_iff_value_pos _).mp hPos).ne'
    simp [hPos, Decimal.div?_eq_none_iff_isOutOfRange hValue]
  · simp [hPos]

/- The accounts fail with the first of their parts that fails. -/
theorem fillTotals?_eq_none_cases :
    order.fillTotals? fill = none ↔
      order.filled.add? fill.quantity = none ∨
        order.turnover? fill = none ∨
          ∃ filled turnover,
            order.filled.add? fill.quantity = some filled ∧
              order.turnover? fill = some turnover ∧
                order.averageAfter? turnover filled = none := by
  rw [fillTotals?_eq]
  cases order.filled.add? fill.quantity with
  | none => simp
  | some filled =>
      cases order.turnover? fill <;> simp

/- The accounts fail exactly if a step of them overflows. -/
theorem fillTotals?_eq_none_iff :
    order.fillTotals? fill = none ↔
      order.FillOverflows fill := by
  rw [fillTotals?_eq_none_cases, turnover?_eq_none_iff]
  constructor
  · rintro (hQuantity | (hPrevious | hValue |
      ⟨previous, value, hPrevious, hValue, hSum⟩) |
      ⟨filled, turnover, hFilled, hTurnover, hAverage⟩)
    · exact .quantity (Decimal.add?_eq_none_iff.mp hQuantity)
    · exact .previous (Decimal.mul?_eq_none_iff.mp hPrevious)
    · exact .value (Decimal.mul?_eq_none_iff.mp hValue)
    · exact
        .turnover previous value hPrevious hValue
          (Decimal.add?_eq_none_iff.mp hSum)
    · rcases averageAfter?_eq_none_iff.mp hAverage with
        ⟨hPos, hRange⟩
      exact .average filled turnover hFilled hTurnover hPos hRange
  · rintro (hRange | hRange | hRange |
      ⟨previous, value, hPrevious, hValue, hRange⟩ |
      ⟨filled, turnover, hFilled, hTurnover, hPos, hRange⟩)
    · exact .inr (.inl (.inl (Decimal.mul?_eq_none_iff.mpr hRange)))
    · exact .inl (Decimal.add?_eq_none_iff.mpr hRange)
    · exact
        .inr (.inl (.inr (.inl
          (Decimal.mul?_eq_none_iff.mpr hRange))))
    · exact
        .inr (.inl (.inr (.inr
          ⟨previous, value, hPrevious, hValue,
            Decimal.add?_eq_none_iff.mpr hRange⟩)))
    · exact
        .inr (.inr
          ⟨filled, turnover, hFilled, hTurnover,
            averageAfter?_eq_none_iff.mpr ⟨hPos, hRange⟩⟩)

------------------------------------------------------------
-- Running Totals
------------------------------------------------------------

/- The fills in a history, oldest first. -/
def fillsIn
    (history : List OrderEvent) : List Fill :=
  history.filterMap fun event => event.occurrence.fill?

/- The last event adds its fill, if it has one. -/
theorem fillsIn_append_singleton
    (history : List OrderEvent)
    (event : OrderEvent) :
    fillsIn (history ++ [event]) =
      fillsIn history ++ event.occurrence.fill?.toList := by
  unfold fillsIn
  rw [List.filterMap_append]
  cases hFill : event.occurrence.fill? <;> simp [hFill]

/- What an event that is applied does to the executed quantity. -/
theorem filled_of_apply
    (hApply : order.apply event = .ok next) :
    match event.occurrence.fill? with
    | none => next.filled = order.filled
    | some fill =>
        order.filled.add? fill.quantity = some next.filled := by
  rcases apply_eq_ok_iff.mp hApply with
    ⟨state, totals, _, hTotals, rfl⟩
  cases hFill : event.occurrence.fill? with
  | none =>
      rw [totalsAfter_of_fill?_eq_none order hFill] at hTotals
      cases hTotals
      rfl
  | some fill =>
      rw [totalsAfter_eq_ok_iff order hFill] at hTotals
      exact (fillTotals?_eq_some_iff.mp hTotals).1

end Order

end OrderDesk
