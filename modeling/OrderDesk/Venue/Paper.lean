import OrderDesk.Config.Basic
import OrderDesk.Message.Trading
import OrderDesk.Notice

/-
  This file defines the paper venue, a simulated broker. It
  accepts every order at once and fills it in full after a
  certain time, at the price of the order or, if that has
  none, at a reference price. A cancel that comes before the
  fill wins.

  A fill is decided when the order is accepted. When its
  time has come, it happens only if an order with its
  identifier still rests at the venue.

  Key definitions include:
    * `PaperVenue`
    * `PendingFill`
    * `VenueStep`
    * `PaperVenue.onSubmit`
    * `PaperVenue.onCancel`
    * `PaperVenue.handle`
    * `PaperVenue.settle`

  Key theorems include:
    * `PaperVenue.isResting_rest`
    * `PaperVenue.isResting_unrest`
-/

namespace OrderDesk

/- A fill that will happen unless the order is gone by then. -/
structure PendingFill where
  orderId : OrderId
  fill : Fill
deriving DecidableEq

/-
  The venue: its settings, whether anybody receives its
  reports, how many orders it has accepted, and which orders
  are neither filled nor cancelled.
-/
structure PaperVenue where
  settings : PaperSettings
  connected : Bool
  accepted : Nat
  resting : List OrderId
deriving DecidableEq

/-
  What comes of one message: the venue afterwards, its
  reports, what the log is told, the fill that is to happen
  later, and whether the venue had no use for the message.
-/
structure VenueStep where
  venue : PaperVenue
  reports : List (Envelope TradingMessage) := []
  notices : List Notice := []
  pending : Option PendingFill := none
  isHandled : Bool := true
deriving DecidableEq

namespace PaperVenue

/- A venue that has not seen any orders. -/
def new
    (settings : PaperSettings)
    (connected : Bool) : PaperVenue :=
  ⟨settings, connected, 0, []⟩

/- The name under which the venue receives messages. -/
def name : String :=
  "paper-venue"

/- The venue's name for the order that it accepts next. -/
def nextOrderName
    (venue : PaperVenue) : String :=
  "PAPER-" ++ toString (venue.accepted + 1)

/- An order is neither filled nor cancelled. -/
def isResting
    (venue : PaperVenue)
    (id : OrderId) : Bool :=
  id ∈ venue.resting

/- Let an order rest at the venue. -/
def rest
    (venue : PaperVenue)
    (id : OrderId) : PaperVenue :=
  if venue.isResting id then
    venue
  else
    { venue with resting := venue.resting ++ [id] }

/- Let an order rest at the venue no longer. -/
def unrest
    (venue : PaperVenue)
    (id : OrderId) : PaperVenue :=
  { venue with resting := venue.resting.filter (· ≠ id) }

/- The fill of an order: all of it, at its own price if it has one. -/
def fillOf
    (venue : PaperVenue)
    (order : SubmitOrder) : Fill :=
  ⟨order.quantity, order.price.getD venue.settings.referencePrice⟩

/- What comes of a report: nothing but a notice if nobody receives it. -/
def report
    (venue : PaperVenue)
    (envelope : Envelope TradingMessage) : VenueStep :=
  if venue.connected then
    { venue, reports := [envelope] }
  else
    { venue, notices := [.venueNotConnected] }

/- Accept an order and decide its fill. -/
def onSubmit
    (stamp : Stamp)
    (venue : PaperVenue)
    (requestId : Uuid)
    (order : SubmitOrder) : VenueStep :=
  let event : OrderEvent :=
    ⟨order.orderId, .accepted venue.nextOrderName⟩
  let venue :=
    { venue.rest order.orderId with accepted := venue.accepted + 1 }
  { venue.report
      (Envelope.response stamp (.orderEvent event) requestId) with
    pending := some ⟨order.orderId, venue.fillOf order⟩ }

/- Cancel an order, if it is still resting. -/
def onCancel
    (stamp : Stamp)
    (venue : PaperVenue)
    (requestId : Uuid)
    (cancel : CancelOrder) : VenueStep :=
  if venue.isResting cancel.orderId then
    (venue.unrest cancel.orderId).report
      (Envelope.response stamp
        (.orderEvent ⟨cancel.orderId, .cancelled⟩) requestId)
  else
    venue.report
      (Envelope.response stamp
        (.cancelRejected
          ⟨cancel.orderId, none, "order is not resting at the venue"⟩)
        requestId)

/- Take a message. The venue has use for commands only. -/
def handle
    (stamp : Stamp)
    (venue : PaperVenue)
    (envelope : Envelope TradingMessage) : VenueStep :=
  match envelope.payload with
  | .submitOrder order => venue.onSubmit stamp envelope.id order
  | .cancelOrder cancel => venue.onCancel stamp envelope.id cancel
  | _ => { venue, isHandled := false }

/-
  Let a fill happen whose time has come. If nobody receives
  reports, nothing is said about it.
-/
def settle
    (stamp : Stamp)
    (venue : PaperVenue)
    (pending : PendingFill) : VenueStep :=
  if venue.isResting pending.orderId then
    { venue := venue.unrest pending.orderId
      reports :=
        if venue.connected then
          [Envelope.event stamp
            (.orderEvent ⟨pending.orderId, .filled pending.fill⟩)]
        else
          [] }
  else
    { venue }

------------------------------------------------------------
-- Resting Orders
------------------------------------------------------------

/- An order that is put to rest is the only one to change. -/
theorem isResting_rest
    (venue : PaperVenue)
    (id other : OrderId) :
    (venue.rest id).isResting other =
      (decide (other = id) || venue.isResting other) := by
  unfold rest
  by_cases hResting : venue.isResting id
  · rw [if_pos hResting]
    by_cases hOther : other = id
    · simp [hOther, hResting]
    · simp [hOther]
  · rw [if_neg hResting]
    by_cases hOther : other = id
    · simp [isResting, hOther]
    · simp [isResting, hOther]

/- An order that rests no longer is the only one to change. -/
theorem isResting_unrest
    (venue : PaperVenue)
    (id other : OrderId) :
    (venue.unrest id).isResting other =
      (!decide (other = id) && venue.isResting other) := by
  unfold unrest isResting
  by_cases hOther : other = id
  · simp [hOther]
  · simp [hOther]

@[simp] theorem settings_rest
    (venue : PaperVenue)
    (id : OrderId) :
    (venue.rest id).settings = venue.settings := by
  unfold rest
  split <;> rfl

@[simp] theorem connected_rest
    (venue : PaperVenue)
    (id : OrderId) :
    (venue.rest id).connected = venue.connected := by
  unfold rest
  split <;> rfl

theorem report_of_connected
    {venue : PaperVenue}
    (envelope : Envelope TradingMessage)
    (hConnected : venue.connected = true) :
    venue.report envelope = { venue, reports := [envelope] } := by
  unfold report
  exact if_pos hConnected

end PaperVenue

end OrderDesk
