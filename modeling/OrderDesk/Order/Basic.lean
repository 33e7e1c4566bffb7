import OrderDesk.Order.Lifecycle

/-
  This file defines orders: the terms that they were
  submitted on, where they stand, what was executed so far,
  and the history of events that led there.

  An order is built from its command and changed by events
  only. An event either is applied as a whole and joins the
  history, or is refused and changes nothing.

  Key definitions include:
    * `Order`
    * `Order.new`
    * `Order.fillTotals?`
    * `Order.advance`
    * `Order.apply`
    * `Order.leaves?`
    * `OrderError`
-/

namespace OrderDesk

------------------------------------------------------------
-- Refused Events
------------------------------------------------------------

/- Why an event could not be applied to an order. -/
inductive OrderError where
  | transition (refused : InvalidTransition OrderState EventKind)
  | fillOverflow (fill : Fill)
deriving DecidableEq

namespace OrderError

/- The refusal as text. -/
def message :
    OrderError → String
| transition refused =>
    refused.message OrderState.name EventKind.name
| fillOverflow fill =>
    "fill of " ++ fill.quantity.toText ++ " @ " ++
      fill.price.toText ++ " overflows order accounting"

end OrderError

------------------------------------------------------------
-- Orders
------------------------------------------------------------

/-
  An order. `average` is the average price of what was
  executed, `filled` its quantity; `history` holds the
  events applied so far, oldest first.
-/
structure Order where
  id : OrderId
  symbol : Symbol
  side : Side
  orderType : OrderType
  quantity : Decimal
  price : Option Decimal
  filled : Decimal
  average : Option Decimal
  venueOrderId : Option String
  state : OrderState
  history : List OrderEvent
deriving DecidableEq

namespace Order

/- The order that a command asks for, before anything happened to it. -/
def new
    (command : SubmitOrder) : Order where
  id := command.orderId
  symbol := command.symbol
  side := command.side
  orderType := command.orderType
  quantity := command.quantity
  price := command.price
  filled := 0
  average := none
  venueOrderId := none
  state := .initialized
  history := []

/- The order has not reached a terminal state. -/
def isOpen
    (order : Order) : Bool :=
  !order.state.isTerminal

/- An event of the given kind is legal now. -/
def canApply
    (order : Order)
    (kind : EventKind) : Bool :=
  (order.state.next? kind).isSome

/- The quantity still to be executed, unless it is out of range. -/
def leaves?
    (order : Order) : Option Decimal :=
  order.quantity.sub? order.filled

------------------------------------------------------------
-- Accounting
------------------------------------------------------------

/-
  The executed quantity and the average price after one more
  fill: the average weighted by quantity. Nothing if a step
  of the computation is out of range. The average is left
  alone as long as the executed quantity is not positive.
-/
def fillTotals?
    (order : Order)
    (fill : Fill) : Option (Decimal × Option Decimal) := do
  let previous ← (order.average.getD 0).mul? order.filled
  let filled ← order.filled.add? fill.quantity
  let value ← fill.quantity.mul? fill.price
  let notional ← previous.add? value
  if 0 < filled then
    let average ← notional.div? filled
    return (filled, some average)
  else
    return (filled, order.average)

/- The accounts of the order after an occurrence. -/
def totalsAfter
    (order : Order)
    (occurrence : Occurrence) :
    Except OrderError (Decimal × Option Decimal) :=
  match occurrence.fill? with
  | none => .ok (order.filled, order.average)
  | some fill =>
      match order.fillTotals? fill with
      | some totals => .ok totals
      | none => .error (.fillOverflow fill)

------------------------------------------------------------
-- Applying Events
------------------------------------------------------------

/-
  The order after an event that led to the state `next` and
  to the accounts `totals`.
-/
def advance
    (order : Order)
    (event : OrderEvent)
    (next : OrderState)
    (totals : Decimal × Option Decimal) : Order :=
  { order with
    state := next
    venueOrderId :=
      event.occurrence.venueOrderId?.orElse
        fun _ => order.venueOrderId
    price :=
      event.occurrence.newPrice?.orElse
        fun _ => order.price
    filled := totals.1
    average := totals.2
    history := order.history ++ [event] }

/-
  Apply an event. It has to be legal in the present state,
  and its fill, if it has one, has to be accountable.
-/
def apply
    (order : Order)
    (event : OrderEvent) : Except OrderError Order :=
  match order.state.next? event.kind with
  | none => .error (.transition ⟨order.state, event.kind⟩)
  | some next =>
      (order.totalsAfter event.occurrence).map
        (order.advance event next)

end Order

end OrderDesk
