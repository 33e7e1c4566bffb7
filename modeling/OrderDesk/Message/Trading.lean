import OrderDesk.Message.Envelope
import OrderDesk.Order.Lifecycle

/-
  This file defines the messages that clients, the engine
  and venues exchange.

  Key definitions include:
    * `CancelRejected`
    * `TransitionRejected`
    * `TradingMessage`
    * `TradingKind`
    * `TradingMessage.orderId`
-/

namespace OrderDesk

------------------------------------------------------------
-- Rejections
------------------------------------------------------------

/-
  A cancel that could not be honoured. The state is that of
  the order, if the order is known.
-/
structure CancelRejected where
  orderId : OrderId
  state : Option OrderState
  reason : String
deriving DecidableEq

/- A report that the life of an order does not allow. -/
structure TransitionRejected where
  orderId : OrderId
  state : OrderState
  trigger : EventKind
deriving DecidableEq

------------------------------------------------------------
-- Trading Messages
------------------------------------------------------------

/- The kinds of trading messages. -/
inductive TradingKind where
  | submitOrder
  | cancelOrder
  | orderEvent
  | cancelRejected
  | transitionRejected
deriving DecidableEq

namespace TradingKind

/- Every kind. -/
def all : List TradingKind :=
  [submitOrder, cancelOrder, orderEvent, cancelRejected,
    transitionRejected]

/- The name of the kind. -/
def name :
    TradingKind → String
| submitOrder => "SubmitOrder"
| cancelOrder => "CancelOrder"
| orderEvent => "OrderEvent"
| cancelRejected => "CancelRejected"
| transitionRejected => "TransitionRejected"

end TradingKind

/- The payload of a trading message. -/
inductive TradingMessage where
  | submitOrder (order : SubmitOrder)
  | cancelOrder (cancel : CancelOrder)
  | orderEvent (event : OrderEvent)
  | cancelRejected (rejection : CancelRejected)
  | transitionRejected (rejection : TransitionRejected)
deriving DecidableEq

namespace TradingMessage

/- The kind of a payload. -/
def kind :
    TradingMessage → TradingKind
| submitOrder _ => .submitOrder
| cancelOrder _ => .cancelOrder
| orderEvent _ => .orderEvent
| cancelRejected _ => .cancelRejected
| transitionRejected _ => .transitionRejected

instance : Payload TradingMessage TradingKind :=
  ⟨kind, TradingKind.name⟩

/- The order that a payload is about. -/
def orderId :
    TradingMessage → OrderId
| submitOrder order => order.orderId
| cancelOrder cancel => cancel.orderId
| orderEvent event => event.orderId
| cancelRejected rejection => rejection.orderId
| transitionRejected rejection => rejection.orderId

/- Submissions among trading messages. -/
def submissions : Variant TradingMessage TradingKind SubmitOrder where
  kind := .submitOrder
  extract
    | submitOrder order => .ok order
    | other => .error other
  embed := submitOrder

/- Cancels among trading messages. -/
def cancels : Variant TradingMessage TradingKind CancelOrder where
  kind := .cancelOrder
  extract
    | cancelOrder cancel => .ok cancel
    | other => .error other
  embed := cancelOrder

/- Order events among trading messages. -/
def reports : Variant TradingMessage TradingKind OrderEvent where
  kind := .orderEvent
  extract
    | orderEvent event => .ok event
    | other => .error other
  embed := orderEvent

/- Rejected cancels among trading messages. -/
def cancelRejections :
    Variant TradingMessage TradingKind CancelRejected where
  kind := .cancelRejected
  extract
    | cancelRejected rejection => .ok rejection
    | other => .error other
  embed := cancelRejected

/- Rejected transitions among trading messages. -/
def transitionRejections :
    Variant TradingMessage TradingKind TransitionRejected where
  kind := .transitionRejected
  extract
    | transitionRejected rejection => .ok rejection
    | other => .error other
  embed := transitionRejected

end TradingMessage

end OrderDesk
