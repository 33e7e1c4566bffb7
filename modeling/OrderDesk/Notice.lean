import OrderDesk.Order.Event

/-
  This file defines what the program tells its log. Each
  notice has a level, a text and details.

  Key definitions include:
    * `Notice`
    * `Notice.level`
    * `Notice.message`
    * `Notice.details`
-/

namespace OrderDesk

/- How important a notice is. -/
inductive NoticeLevel where
  | info
  | warn
  | error
deriving DecidableEq

namespace NoticeLevel

/- The name of the level. -/
def name :
    NoticeLevel → String
| info => "INFO"
| warn => "WARN"
| error => "ERROR"

end NoticeLevel

/- A detail of a notice. -/
inductive Detail where
  | text (s : String)
  | count (n : Nat)
  | order (id : OrderId)
deriving DecidableEq

/- Something that the log is told. -/
inductive Notice where
  | throttlerStarted (throttler : String) (intervalMs released : Nat)
  | throttlerStopped (throttler : String) (buffered : Nat)
  | deliveryFailed (target : String)
  | mailboxStarted (component : String)
  | mailboxStopped (component : String) (discarded : Nat)
  | handlerFault (component messageType error : String)
  | duplicateOrder (id : OrderId)
  | orderInvalid (id : OrderId) (reason : String)
  | orderDenied (id : OrderId) (reason : String)
  | cancelRejected (id : OrderId) (reason : String)
  | unknownOrder (id : OrderId) (trigger : EventKind)
  | reportRejected (id : OrderId) (error : String)
  | venueNotConnected
deriving DecidableEq

namespace Notice

/- The level of a notice. -/
def level :
    Notice → NoticeLevel
| throttlerStarted _ _ _ => .info
| throttlerStopped _ _ => .info
| mailboxStarted _ => .info
| mailboxStopped _ _ => .info
| handlerFault _ _ _ => .error
| _ => .warn

/- The text of a notice. -/
def message :
    Notice → String
| throttlerStarted _ _ _ => "throttler started"
| throttlerStopped _ _ => "throttler stopped"
| deliveryFailed _ =>
    "delivery failure: target is gone, message dropped"
| mailboxStarted _ => "mailbox started"
| mailboxStopped _ _ => "mailbox stopped"
| handlerFault _ _ _ => "handler fault"
| duplicateOrder _ => "duplicate order id, submission ignored"
| orderInvalid _ _ => "order invalid"
| orderDenied _ _ => "order denied"
| cancelRejected _ _ => "cancel rejected"
| unknownOrder _ _ => "report for unknown order ignored"
| reportRejected _ _ => "venue report rejected"
| venueNotConnected => "paper venue not connected, report dropped"

/- The details of a notice, each with its name. -/
def details :
    Notice → List (String × Detail)
| throttlerStarted throttler intervalMs released =>
    [("throttler", .text throttler), ("interval_ms", .count intervalMs),
      ("released", .count released)]
| throttlerStopped throttler buffered =>
    [("throttler", .text throttler), ("buffered", .count buffered)]
| deliveryFailed target => [("target_name", .text target)]
| mailboxStarted component => [("component", .text component)]
| mailboxStopped component discarded =>
    [("component", .text component), ("discarded", .count discarded)]
| handlerFault component messageType error =>
    [("component", .text component),
      ("message_type", .text messageType), ("error", .text error)]
| duplicateOrder id => [("order_id", .order id)]
| orderInvalid id reason =>
    [("order_id", .order id), ("reason", .text reason)]
| orderDenied id reason =>
    [("order_id", .order id), ("reason", .text reason)]
| cancelRejected id reason =>
    [("order_id", .order id), ("reason", .text reason)]
| unknownOrder id trigger =>
    [("order_id", .order id), ("trigger", .text trigger.name)]
| reportRejected id error =>
    [("order_id", .order id), ("error", .text error)]
| venueNotConnected => []

end Notice

end OrderDesk
