import OrderDesk.StateMachine
import OrderDesk.Order.Event

/-
  This file defines the states of an order and which events
  lead from one to another.

  Key definitions include:
    * `OrderState`
    * `OrderState.isTerminal`
    * `OrderState.transitions`
    * `OrderState.next?`
-/

namespace OrderDesk

------------------------------------------------------------
-- States
------------------------------------------------------------

/- Where an order stands in its life. -/
inductive OrderState where
  | initialized
  | submitted
  | accepted
  | rejected
  | working
  | partiallyFilled
  | filled
  | cancelled
  | expired
  | invalid
  | denied
deriving DecidableEq

namespace OrderState

/- Every state. -/
def all : List OrderState :=
  [initialized, submitted, accepted, rejected, working,
    partiallyFilled, filled, cancelled, expired, invalid, denied]

/- No further fills or cancels can happen. -/
def isTerminal :
    OrderState → Bool
| rejected | filled | cancelled | expired | invalid | denied => true
| _ => false

/- The name of the state. -/
def name :
    OrderState → String
| initialized => "Initialized"
| submitted => "Submitted"
| accepted => "Accepted"
| rejected => "Rejected"
| working => "Working"
| partiallyFilled => "PartiallyFilled"
| filled => "Filled"
| cancelled => "Cancelled"
| expired => "Expired"
| invalid => "Invalid"
| denied => "Denied"

/- The state as it is shown. -/
def display :
    OrderState → String
| initialized => "INITIALIZED"
| submitted => "SUBMITTED"
| accepted => "ACCEPTED"
| rejected => "REJECTED"
| working => "WORKING"
| partiallyFilled => "PARTIALLY_FILLED"
| filled => "FILLED"
| cancelled => "CANCELLED"
| expired => "EXPIRED"
| invalid => "INVALID"
| denied => "DENIED"

------------------------------------------------------------
-- Transitions
------------------------------------------------------------

/- Every legal step in the life of an order. -/
def transitions : TransitionTable OrderState EventKind :=
  [⟨initialized, .cancelled, cancelled⟩,
    ⟨initialized, .invalid, invalid⟩,
    ⟨initialized, .denied, denied⟩,
    ⟨initialized, .submitted, submitted⟩,
    ⟨submitted, .cancelled, cancelled⟩,
    ⟨submitted, .rejected, rejected⟩,
    ⟨submitted, .accepted, accepted⟩,
    ⟨submitted, .working, working⟩,
    ⟨rejected, .rejected, rejected⟩,
    ⟨accepted, .cancelled, cancelled⟩,
    ⟨accepted, .working, working⟩,
    ⟨accepted, .partiallyFilled, partiallyFilled⟩,
    ⟨accepted, .filled, filled⟩,
    ⟨working, .cancelled, cancelled⟩,
    ⟨working, .working, working⟩,
    ⟨working, .expired, expired⟩,
    ⟨working, .partiallyFilled, partiallyFilled⟩,
    ⟨working, .filled, filled⟩,
    ⟨partiallyFilled, .cancelled, cancelled⟩,
    ⟨partiallyFilled, .partiallyFilled, partiallyFilled⟩,
    ⟨partiallyFilled, .filled, filled⟩]

/- The state that an event of the given kind leads to, if it is legal. -/
def next?
    (state : OrderState)
    (kind : EventKind) : Option OrderState :=
  transitions.next? state kind

end OrderState

end OrderDesk
