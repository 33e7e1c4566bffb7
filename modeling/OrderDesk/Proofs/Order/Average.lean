import OrderDesk.Proofs.Order.Accounts

/-
  This file proves that the average price of an order is the
  average of its fills, weighted by their quantities, as long
  as nothing is rounded.

  The order does not keep the value of its fills. At each
  fill it undoes the division of the fill before, by
  multiplying the average by the quantity again, and divides
  anew. The invariant is that this product is the value of
  all fills so far.

  Key definitions include:
    * `Order.BooksExactly`
    * `Order.ReplaysExactly`
    * `Order.IsFilledExactly`
    * `Order.WeighsFills`

  Key theorems include:
    * `Order.WeighsFills.apply`
    * `Order.WeighsFills.replay`
    * `Order.weighsFills_of_isFilledExactly`
-/

namespace OrderDesk

------------------------------------------------------------
-- Exact Results
------------------------------------------------------------

/- A result, if there is one, was not rounded. -/
def Decimal.IsExact
    (result : Option Decimal)
    (exact : ℚ) : Prop :=
  ∀ r ∈ result, r.value = exact

instance
    (result : Option Decimal)
    (exact : ℚ) :
    Decidable (Decimal.IsExact result exact) :=
  inferInstanceAs (Decidable (∀ r ∈ result, r.value = exact))

namespace Order

/- No step of booking a fill rounds its result. -/
structure BooksExactly
    (order : Order)
    (fill : Fill) : Prop where
  previous :
    Decimal.IsExact ((order.average.getD 0).mul? order.filled)
      ((order.average.getD 0).value * order.filled.value)
  quantity :
    Decimal.IsExact (order.filled.add? fill.quantity)
      (order.filled.value + fill.quantity.value)
  value :
    Decimal.IsExact (fill.quantity.mul? fill.price)
      (fill.quantity.value * fill.price.value)
  turnover :
    ∀ previous ∈ (order.average.getD 0).mul? order.filled,
      ∀ value ∈ fill.quantity.mul? fill.price,
        Decimal.IsExact (previous.add? value)
          (previous.value + value.value)
  average :
    ∀ turnover ∈ order.turnover? fill,
      ∀ filled ∈ order.filled.add? fill.quantity,
        Decimal.IsExact (turnover.div? filled)
          (turnover.value / filled.value)

instance
    (order : Order)
    (fill : Fill) :
    Decidable (order.BooksExactly fill) :=
  decidable_of_iff
    (Decimal.IsExact ((order.average.getD 0).mul? order.filled)
          ((order.average.getD 0).value * order.filled.value) ∧
      Decimal.IsExact (order.filled.add? fill.quantity)
          (order.filled.value + fill.quantity.value) ∧
        Decimal.IsExact (fill.quantity.mul? fill.price)
            (fill.quantity.value * fill.price.value) ∧
          (∀ previous ∈ (order.average.getD 0).mul? order.filled,
            ∀ value ∈ fill.quantity.mul? fill.price,
              Decimal.IsExact (previous.add? value)
                (previous.value + value.value)) ∧
            ∀ turnover ∈ order.turnover? fill,
              ∀ filled ∈ order.filled.add? fill.quantity,
                Decimal.IsExact (turnover.div? filled)
                  (turnover.value / filled.value))
    ⟨fun h => ⟨h.1, h.2.1, h.2.2.1, h.2.2.2.1, h.2.2.2.2⟩,
      fun h => ⟨h.1, h.2, h.3, h.4, h.5⟩⟩

/- Events are replayed, and no fill of them is rounded. -/
def ReplaysExactly :
    Order → List OrderEvent → Prop
| _, [] => True
| order, event :: events =>
    (∀ fill ∈ event.occurrence.fill?, order.BooksExactly fill) ∧
      ∀ next ∈ (order.apply event).toOption,
        next.ReplaysExactly events

instance decidableReplaysExactly :
    (order : Order) →
      (events : List OrderEvent) →
        Decidable (order.ReplaysExactly events)
| _, [] => isTrue trivial
| order, event :: events =>
    have : ∀ next : Order, Decidable (next.ReplaysExactly events) :=
      fun next => decidableReplaysExactly next events
    inferInstanceAs
      (Decidable
        ((∀ fill ∈ event.occurrence.fill?,
            order.BooksExactly fill) ∧
          ∀ next ∈ (order.apply event).toOption,
            next.ReplaysExactly events))

/-
  The events lead from a new order to `order`, every fill of
  them is of a positive quantity, and nothing is rounded.
-/
structure IsFilledExactly
    (command : SubmitOrder)
    (events : List OrderEvent)
    (order : Order) : Prop where
  replay : (new command).replay events = .ok order
  positive : ∀ fill ∈ fillsIn events, 0 < fill.quantity
  exact : (new command).ReplaysExactly events

------------------------------------------------------------
-- Weighted Averages
------------------------------------------------------------

/- The quantity of a number of fills. -/
def quantityOf
    (fills : List Fill) : ℚ :=
  (fills.map fun fill => fill.quantity.value).sum

/- The value of a number of fills, each at its own price. -/
def valueOf
    (fills : List Fill) : ℚ :=
  (fills.map fun fill =>
    fill.quantity.value * fill.price.value).sum

/-
  The accounts of an order are those of a number of fills: it
  has their quantity, and the average is their value over
  their quantity, if there are any.
-/
structure WeighsFills
    (fills : List Fill)
    (order : Order) : Prop where
  filled_eq : order.filled.value = quantityOf fills
  average_eq_none_iff : order.average = none ↔ fills = []
  average_eq :
    ∀ average ∈ order.average,
      average.value = valueOf fills / quantityOf fills

variable {order next : Order} {event : OrderEvent}
variable {fills : List Fill} {fill : Fill}

theorem quantityOf_append_singleton
    (fills : List Fill)
    (fill : Fill) :
    quantityOf (fills ++ [fill]) =
      quantityOf fills + fill.quantity.value := by
  simp [quantityOf]

theorem valueOf_append_singleton
    (fills : List Fill)
    (fill : Fill) :
    valueOf (fills ++ [fill]) =
      valueOf fills + fill.quantity.value * fill.price.value := by
  simp [valueOf]

theorem quantityOf_pos
    (hSome : fills ≠ [])
    (hPositive : ∀ fill ∈ fills, 0 < fill.quantity) :
    0 < quantityOf fills := by
  refine List.sum_pos _ ?_ (by simpa using hSome)
  intro quantity hQuantity
  rcases List.mem_map.mp hQuantity with ⟨fill, hFill, rfl⟩
  exact (Decimal.pos_iff_value_pos _).mp (hPositive fill hFill)

/- Where there is an average, there are fills. -/
theorem WeighsFills.ne_nil_of_average
    {average : Decimal}
    (hWeighs : WeighsFills fills order)
    (hAverage : order.average = some average) :
    fills ≠ [] := by
  intro hNone
  rw [hWeighs.average_eq_none_iff.mpr hNone] at hAverage
  cases hAverage

/- Multiplying the average by the quantity undoes the division. -/
theorem WeighsFills.average_mul_filled
    (hWeighs : WeighsFills fills order)
    (hPositive : ∀ fill ∈ fills, 0 < fill.quantity) :
    (order.average.getD 0).value * order.filled.value =
      valueOf fills := by
  rw [hWeighs.filled_eq]
  cases hAverage : order.average with
  | none =>
      rw [hWeighs.average_eq_none_iff.mp hAverage]
      simp [quantityOf, valueOf]
  | some average =>
      have hSome := hWeighs.ne_nil_of_average hAverage
      rw [Option.getD_some, hWeighs.average_eq average hAverage]
      exact
        div_mul_cancel₀ _ (quantityOf_pos hSome hPositive).ne'

/- The exact turnover adds the value of the fill. -/
theorem BooksExactly.turnover_value
    {turnover : Decimal}
    (hExact : order.BooksExactly fill)
    (hTurnover : order.turnover? fill = some turnover) :
    turnover.value =
      (order.average.getD 0).value * order.filled.value +
        fill.quantity.value * fill.price.value := by
  unfold turnover? at hTurnover
  rcases Option.bind_eq_some_iff.mp hTurnover with
    ⟨previous, hPrevious, hRest⟩
  rcases Option.bind_eq_some_iff.mp hRest with
    ⟨value, hValue, hSum⟩
  rw [hExact.turnover previous hPrevious value hValue turnover hSum,
    hExact.previous previous hPrevious, hExact.value value hValue]

/- A fill that is booked exactly joins the fills that are weighed. -/
theorem WeighsFills.book
    {totals : Decimal × Option Decimal}
    (hWeighs : WeighsFills fills order)
    (hPositive : ∀ other ∈ fills ++ [fill], 0 < other.quantity)
    (hExact : order.BooksExactly fill)
    (hTotals : order.fillTotals? fill = some totals)
    (hFilled : next.filled = totals.1)
    (hAverage : next.average = totals.2) :
    WeighsFills (fills ++ [fill]) next := by
  have hBefore := hWeighs.average_mul_filled fun other hOther =>
    hPositive other (List.mem_append_left _ hOther)
  have hPos := quantityOf_pos (by simp) hPositive
  rcases fillTotals?_eq_some_iff.mp hTotals with
    ⟨hQuantity, turnover, hTurnover, hAfter⟩
  have hNew : totals.1.value = quantityOf (fills ++ [fill]) := by
    rw [hExact.quantity totals.1 hQuantity, hWeighs.filled_eq,
      quantityOf_append_singleton]
  have hValue : turnover.value = valueOf (fills ++ [fill]) := by
    rw [hExact.turnover_value hTurnover, hBefore,
      valueOf_append_singleton]
  -- The new quantity is positive, so that the average is computed.
  have hDivides : 0 < totals.1 := by
    rw [Decimal.pos_iff_value_pos, hNew]
    exact hPos
  unfold averageAfter? at hAfter
  rw [if_pos hDivides] at hAfter
  rcases Option.map_eq_some_iff.mp hAfter with
    ⟨average, hQuotient, hSome⟩
  rw [← hSome] at hAverage
  refine ⟨by rw [hFilled, hNew], by simp [hAverage], ?_⟩
  intro other hOther
  rw [hAverage] at hOther
  cases hOther
  rw [hExact.average turnover hTurnover totals.1 hQuantity average
    hQuotient, hNew, hValue]

/- One event more, one fill more at most. -/
theorem WeighsFills.apply
    (hWeighs : WeighsFills fills order)
    (hPositive :
      ∀ fill ∈ fills ++ event.occurrence.fill?.toList,
        0 < fill.quantity)
    (hExact :
      ∀ fill ∈ event.occurrence.fill?, order.BooksExactly fill)
    (hApply : order.apply event = .ok next) :
    WeighsFills (fills ++ event.occurrence.fill?.toList) next := by
  rcases apply_eq_ok_iff.mp hApply with
    ⟨state, totals, _, hTotals, rfl⟩
  cases hFill : event.occurrence.fill? with
  | none =>
      rw [totalsAfter_of_fill?_eq_none order hFill] at hTotals
      cases hTotals
      rw [Option.toList_none, List.append_nil]
      exact
        ⟨hWeighs.filled_eq, hWeighs.average_eq_none_iff,
          hWeighs.average_eq⟩
  | some fill =>
      rw [hFill] at hPositive
      exact
        hWeighs.book hPositive (hExact fill hFill)
          ((totalsAfter_eq_ok_iff order hFill).mp hTotals) rfl rfl

/- All fills of a replay join, one after the other. -/
theorem WeighsFills.replay
    {events : List OrderEvent}
    (hWeighs : WeighsFills fills order)
    (hPositive :
      ∀ fill ∈ fills ++ fillsIn events, 0 < fill.quantity)
    (hExact : order.ReplaysExactly events)
    (hReplay : order.replay events = .ok next) :
    WeighsFills (fills ++ fillsIn events) next := by
  induction events generalizing order fills with
  | nil =>
      cases hReplay
      simpa [fillsIn] using hWeighs
  | cons event events ih =>
      rcases exists_of_replay_cons hReplay with
        ⟨first, hFirst, hRest⟩
      have hFills :
          fills ++ fillsIn (event :: events) =
            fills ++ event.occurrence.fill?.toList ++
              fillsIn events := by
        rw [List.append_assoc]
        cases hFill : event.occurrence.fill? <;>
          simp [fillsIn, hFill]
      rw [hFills] at hPositive ⊢
      have hStep :=
        hWeighs.apply
          (fun fill hFill =>
            hPositive fill (List.mem_append_left _ hFill))
          hExact.1 hFirst
      exact ih hStep hPositive (hExact.2 first (by rw [hFirst]; rfl)) hRest

/- The average is known by its value from the fills alone. -/
theorem WeighsFills.map_average
    (hWeighs : WeighsFills fills order) :
    order.average.map Decimal.value =
      if fills = [] then
        none
      else
        some (valueOf fills / quantityOf fills) := by
  cases hAverage : order.average with
  | none =>
      rw [if_pos (hWeighs.average_eq_none_iff.mp hAverage),
        Option.map_none]
  | some average =>
      rw [if_neg (hWeighs.ne_nil_of_average hAverage),
        Option.map_some,
        hWeighs.average_eq average hAverage]

/- The sequence of the fills does not matter to the accounts. -/
theorem WeighsFills.eq_of_perm
    {other : Order}
    {others : List Fill}
    (hWeighs : WeighsFills fills order)
    (hOther : WeighsFills others other)
    (hPerm : others.Perm fills) :
    other.filled.value = order.filled.value ∧
      other.average.map Decimal.value =
        order.average.map Decimal.value := by
  have hQuantity : quantityOf others = quantityOf fills :=
    (hPerm.map _).sum_eq
  have hValue : valueOf others = valueOf fills :=
    (hPerm.map _).sum_eq
  have hNone : others = [] ↔ fills = [] :=
    ⟨fun h => (h ▸ hPerm).nil_eq.symm, fun h => (h ▸ hPerm).eq_nil⟩
  rw [hWeighs.filled_eq, hOther.filled_eq, hWeighs.map_average,
    hOther.map_average, hQuantity, hValue]
  simp only [hNone, and_self]

/- An order that is filled exactly weighs the fills of its history. -/
theorem IsFilledExactly.weighsFills
    {command : SubmitOrder}
    {events : List OrderEvent}
    (hFilled : IsFilledExactly command events order) :
    WeighsFills (fillsIn order.history) order := by
  have hHistory : order.history = events :=
    history_of_replay hFilled.replay
  have hNew : WeighsFills [] (new command) :=
    ⟨Decimal.value_zero, iff_of_true rfl rfl, nofun⟩
  rw [hHistory]
  exact
    hNew.replay hFilled.positive hFilled.exact hFilled.replay

/-
  An order that is filled exactly has the quantity of the
  fills in its history and their weighted average, which it
  lacks exactly if there are no fills. So the sequence of the
  fills does not matter: any order that is filled exactly by
  the same fills has the same accounts.
-/
theorem weighsFills_of_isFilledExactly
    {command : SubmitOrder}
    {events : List OrderEvent}
    (hFilled : IsFilledExactly command events order) :
    WeighsFills (fillsIn order.history) order ∧
      ∀ command' events' order',
        IsFilledExactly command' events' order' →
          (fillsIn order'.history).Perm (fillsIn order.history) →
            order'.filled.value = order.filled.value ∧
              order'.average.map Decimal.value =
                order.average.map Decimal.value :=
  ⟨hFilled.weighsFills, fun _ _ _ hOther hPerm =>
    hFilled.weighsFills.eq_of_perm hOther.weighsFills hPerm⟩

/- An order for four. -/
def orderForFour : SubmitOrder where
  orderId := OrderId.ofNat 1
  symbol := Symbol.ofText "btc"
  side := .buy
  orderType := .limit
  quantity := Decimal.ofNat 4
  price := some (Decimal.ofNat 120)

/- The order for four is placed, and filled at two prices. -/
def filledTwice
    (first second : Fill) : List OrderEvent :=
  [⟨orderForFour.orderId, .submitted⟩,
    ⟨orderForFour.orderId, .accepted "V"⟩,
    ⟨orderForFour.orderId, .partiallyFilled first⟩,
    ⟨orderForFour.orderId, .filled second⟩]

/- One for a hundred. -/
def oneCheap : Fill :=
  ⟨Decimal.ofNat 1 Decimal.one_lt_twoTo,
    Decimal.ofNat 100 Decimal.hundred_lt_twoTo⟩

/- Three for a hundred and twenty each. -/
def threeDear : Fill :=
  ⟨Decimal.ofNat 3, Decimal.ofNat 120⟩

/- The order for four, after all of it was executed. -/
def filledForFour
    (history : List OrderEvent) : Order :=
  { new orderForFour with
    state := .filled
    venueOrderId := some "V"
    filled := Decimal.ofNat 4
    average := some (Decimal.ofNat 115)
    history := history }

/-
  One at a hundred and three at a hundred and twenty make
  four at a hundred and fifteen, in either sequence.
-/
theorem weighsFills_of_isFilledExactly_fourAtTwoPrices :
    IsFilledExactly orderForFour (filledTwice oneCheap threeDear)
        (filledForFour (filledTwice oneCheap threeDear)) ∧
      IsFilledExactly orderForFour (filledTwice threeDear oneCheap)
          (filledForFour (filledTwice threeDear oneCheap)) ∧
        WeighsFills [oneCheap, threeDear]
            (filledForFour (filledTwice oneCheap threeDear)) ∧
          valueOf [oneCheap, threeDear] /
              quantityOf [oneCheap, threeDear] = 115 ∧
            (filledForFour
                  (filledTwice threeDear oneCheap)).average.map
                Decimal.value =
              (filledForFour
                  (filledTwice oneCheap threeDear)).average.map
                Decimal.value := by
  have hFilled :
      IsFilledExactly orderForFour (filledTwice oneCheap threeDear)
        (filledForFour (filledTwice oneCheap threeDear)) :=
    ⟨by decide +kernel, by decide +kernel, by decide +kernel⟩
  have hSwapped :
      IsFilledExactly orderForFour (filledTwice threeDear oneCheap)
        (filledForFour (filledTwice threeDear oneCheap)) :=
    ⟨by decide +kernel, by decide +kernel, by decide +kernel⟩
  rcases weighsFills_of_isFilledExactly hFilled with
    ⟨hWeighs, hPerm⟩
  have hSame :=
    hPerm _ _ _ hSwapped (List.Perm.swap oneCheap threeDear [])
  exact
    ⟨hFilled, hSwapped, hWeighs, by decide +kernel, hSame.2⟩

end Order

end OrderDesk
