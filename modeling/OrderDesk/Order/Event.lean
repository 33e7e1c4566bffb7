import OrderDesk.Order.Command

/-
  This file defines what can happen to an order.

  Key definitions include:
    * `Fill`
    * `EventKind`
    * `Occurrence`
    * `OrderEvent`
-/

namespace OrderDesk

------------------------------------------------------------
-- Kinds Of Events
------------------------------------------------------------

/- The kinds of things that can happen to an order. -/
inductive EventKind where
  | submitted
  | accepted
  | rejected
  | working
  | partiallyFilled
  | filled
  | cancelled
  | expired
  | invalid
  | denied
deriving DecidableEq

namespace EventKind

/- Every kind, in the order of an order's life. -/
def all : List EventKind :=
  [submitted, accepted, rejected, working, partiallyFilled,
    filled, cancelled, expired, invalid, denied]

/- The name of the kind. -/
def name :
    EventKind → String
| submitted => "OrderSubmitted"
| accepted => "OrderAccepted"
| rejected => "OrderRejected"
| working => "OrderWorking"
| partiallyFilled => "OrderPartiallyFilled"
| filled => "OrderFilled"
| cancelled => "OrderCancelled"
| expired => "OrderExpired"
| invalid => "OrderInvalid"
| denied => "OrderDenied"

end EventKind

------------------------------------------------------------
-- Events
------------------------------------------------------------

/- The execution of a part or all of an order. -/
structure Fill where
  quantity : Decimal
  price : Decimal
deriving DecidableEq

/-
  What happened. `working` says that the order rests at the
  venue; it is repeated when the order is modified, with the
  new price if that has changed.
-/
inductive Occurrence where
  | submitted
  | accepted (venueOrderId : String)
  | rejected (reason : String)
  | working (venueOrderId : String) (price : Option Decimal)
  | partiallyFilled (fill : Fill)
  | filled (fill : Fill)
  | cancelled
  | expired
  | invalid (reason : String)
  | denied (reason : String)
deriving DecidableEq

namespace Occurrence

/- The kind of an occurrence. -/
def kind :
    Occurrence → EventKind
| submitted => .submitted
| accepted _ => .accepted
| rejected _ => .rejected
| working _ _ => .working
| partiallyFilled _ => .partiallyFilled
| filled _ => .filled
| cancelled => .cancelled
| expired => .expired
| invalid _ => .invalid
| denied _ => .denied

/- The execution that an occurrence reports, if it reports one. -/
def fill? :
    Occurrence → Option Fill
| partiallyFilled fill => some fill
| filled fill => some fill
| _ => none

/- The venue's name for the order, if the occurrence carries it. -/
def venueOrderId? :
    Occurrence → Option String
| accepted venueOrderId => some venueOrderId
| working venueOrderId _ => some venueOrderId
| _ => none

/- The new price of the order, if the occurrence carries one. -/
def newPrice? :
    Occurrence → Option Decimal
| working _ price => price
| _ => none

end Occurrence

/- Something that happened to a certain order. -/
structure OrderEvent where
  orderId : OrderId
  occurrence : Occurrence
deriving DecidableEq

namespace OrderEvent

/- The kind of an event. -/
def kind
    (event : OrderEvent) : EventKind :=
  event.occurrence.kind

end OrderEvent

end OrderDesk
