import OrderDesk.Proofs.Order.Accounts
import OrderDesk.Proofs.Order.Offers

/-
  This file proves that the fields of an order can be read
  off its history and the command it came from. Each field
  follows its own kinds of events and ignores all others: the
  state follows every event, the venue's name those that
  carry one, the price those that carry a new one, and the
  executed quantity the fills.

  Key definitions include:
    * `Order.lastTold`
    * `Order.totalFilled?`
    * `Order.IsProjection`

  Key theorems include:
    * `EventKind.name_eq`
    * `Order.IsProjection.apply`
    * `Order.isProjection_offerAll`
-/

namespace OrderDesk

namespace EventKind

/- Events are named for the state that they lead to. -/
theorem name_eq
    (kind : EventKind) :
    kind.name = "Order" ++ kind.target.name := by
  cases kind <;> rfl

/- No event leads back to the start. -/
theorem target_ne_initialized
    (kind : EventKind) :
    kind.target ≠ .initialized := by
  cases kind <;> simp [target]

end EventKind

namespace Order

------------------------------------------------------------
-- Reading A History
------------------------------------------------------------

/- The last thing of a sort that is told in a history. -/
def lastTold
    {α : Type}
    (tell : Occurrence → Option α)
    (history : List OrderEvent) : Option α :=
  (history.filterMap fun event => tell event.occurrence).getLast?

/- The last event has the last word, if it tells anything. -/
theorem lastTold_append_singleton
    {α : Type}
    (tell : Occurrence → Option α)
    (history : List OrderEvent)
    (event : OrderEvent) :
    lastTold tell (history ++ [event]) =
      (tell event.occurrence).or (lastTold tell history) := by
  unfold lastTold
  rw [List.filterMap_append, List.getLast?_append]
  cases hTell : tell event.occurrence <;> simp [hTell]

/-
  The quantities of fills, added up one after the other from
  zero. Every sum is rounded like any sum of decimals.
-/
def totalFilled?
    (fills : List Fill) : Option Decimal :=
  fills.foldlM (fun total fill => total.add? fill.quantity) 0

/- One more fill is added to the sum of those before it. -/
theorem totalFilled?_append_singleton
    (fills : List Fill)
    (fill : Fill) :
    totalFilled? (fills ++ [fill]) =
      (totalFilled? fills).bind fun total =>
        total.add? fill.quantity := by
  unfold totalFilled?
  rw [List.foldlM_append]
  simp

------------------------------------------------------------
-- Fields Of An Order
------------------------------------------------------------

/-
  The fields of an order are what its history says about
  them, and the terms of the command where it says nothing.
-/
structure IsProjection
    (command : SubmitOrder)
    (order : Order) : Prop where
  id_eq : order.id = command.orderId
  symbol_eq : order.symbol = command.symbol
  side_eq : order.side = command.side
  orderType_eq : order.orderType = command.orderType
  quantity_eq : order.quantity = command.quantity
  initialized_iff :
    order.state = .initialized ↔ order.history = []
  named :
    ∀ event,
      order.history.getLast? = some event →
        event.kind.name = "Order" ++ order.state.name
  venueOrderId_eq :
    order.venueOrderId =
      lastTold Occurrence.venueOrderId? order.history
  price_eq :
    order.price =
      (lastTold Occurrence.newPrice? order.history).or
        command.price
  filled_eq :
    totalFilled? (fillsIn order.history) = some order.filled

variable {command : SubmitOrder} {order next : Order}
variable {event : OrderEvent}

theorem isProjection_new
    (command : SubmitOrder) :
    IsProjection command (new command) where
  id_eq := rfl
  symbol_eq := rfl
  side_eq := rfl
  orderType_eq := rfl
  quantity_eq := rfl
  initialized_iff := by simp [new]
  named := by simp [new]
  venueOrderId_eq := rfl
  price_eq := rfl
  filled_eq := rfl

theorem totalFilled?_of_apply
    (hFilled :
      totalFilled? (fillsIn order.history) = some order.filled)
    (hApply : order.apply event = .ok next) :
    totalFilled? (fillsIn next.history) = some next.filled := by
  have hNext := filled_of_apply hApply
  rw [history_of_apply hApply, fillsIn_append_singleton]
  cases hFill : event.occurrence.fill? with
  | none =>
      simp only [hFill] at hNext
      rw [Option.toList_none, List.append_nil, hFilled, hNext]
  | some fill =>
      simp only [hFill] at hNext
      rw [Option.toList_some, totalFilled?_append_singleton,
        hFilled]
      exact hNext

/- Every event that is applied is written to the right fields. -/
theorem IsProjection.apply
    (hProjection : IsProjection command order)
    (hApply : order.apply event = .ok next) :
    IsProjection command next := by
  have hState := state_of_apply hApply
  have hHistory := history_of_apply hApply
  have hFilled :=
    totalFilled?_of_apply hProjection.filled_eq hApply
  rcases apply_eq_ok_iff.mp hApply with
    ⟨state, totals, _, _, rfl⟩
  exact
    { id_eq := hProjection.id_eq
      symbol_eq := hProjection.symbol_eq
      side_eq := hProjection.side_eq
      orderType_eq := hProjection.orderType_eq
      quantity_eq := hProjection.quantity_eq
      initialized_iff := by
        rw [hState, hHistory]
        simp [EventKind.target_ne_initialized]
      named := by
        intro last hLast
        rw [hHistory, List.getLast?_concat] at hLast
        cases hLast
        rw [hState]
        exact event.kind.name_eq
      venueOrderId_eq := by
        rw [hHistory, lastTold_append_singleton,
          ← hProjection.venueOrderId_eq]
        exact Option.orElse_eq_or
      price_eq := by
        rw [hHistory, lastTold_append_singleton, Option.or_assoc,
          ← hProjection.price_eq]
        exact Option.orElse_eq_or
      filled_eq := hFilled }

theorem IsProjection.offerAll
    (hProjection : IsProjection command order)
    (events : List OrderEvent) :
    IsProjection command (order.offerAll events).2 := by
  induction events generalizing order with
  | nil => exact hProjection
  | cons event events ih =>
      cases hApply : order.apply event with
      | ok next =>
          rw [offerAll_cons_of_apply events hApply]
          exact ih (hProjection.apply hApply)
      | error e =>
          rw [offerAll_cons_of_apply_error events hApply]
          exact ih hProjection

/-
  Whatever events are offered to a new order, its fields are
  projections of its history.
-/
theorem isProjection_offerAll
    (command : SubmitOrder)
    (events : List OrderEvent) :
    IsProjection command ((new command).offerAll events).2 :=
  (isProjection_new command).offerAll events

end Order

end OrderDesk
