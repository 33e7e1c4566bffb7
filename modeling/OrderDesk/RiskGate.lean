import OrderDesk.Order.Command

/-
  This file defines the gate that every order passes before
  it may reach a venue: hard limits on its size and value,
  and a switch that stops all trading.

  Key definitions include:
    * `RiskLimits`
    * `RiskGate`
    * `RiskGate.valuation?`
    * `RiskGate.check`
    * `RiskError`

  Key theorems include:
    * `RiskGate.check_eq_ok_iff`
-/

namespace OrderDesk

/- The largest quantity and the largest value of a single order. -/
structure RiskLimits where
  maxQuantity : Decimal
  maxNotional : Decimal
deriving DecidableEq

/- Why an order does not pass. -/
inductive RiskError where
  | nonPositiveQuantity (quantity : Decimal)
  | quantityTooLarge (quantity max : Decimal)
  | notionalTooLarge (notional max : Decimal)
  | notionalOverflow (quantity price : Decimal)
  | tradingPaused (reason : String)
deriving DecidableEq

namespace RiskError

/- The refusal as text. -/
def message :
    RiskError → String
| nonPositiveQuantity quantity =>
    "order quantity " ++ quantity.toText ++ " must be positive"
| quantityTooLarge quantity max =>
    "order quantity " ++ quantity.toText ++ " exceeds max " ++
      max.toText
| notionalTooLarge notional max =>
    "order notional " ++ notional.toText ++ " exceeds max " ++
      max.toText
| notionalOverflow quantity price =>
    "order notional " ++ quantity.toText ++ " x " ++
      price.toText ++ " is out of range"
| tradingPaused reason => "trading paused: " ++ reason

end RiskError

/-
  The gate. `referencePrice` values orders that carry no
  price; `paused` holds the reason while trading is stopped.
-/
structure RiskGate where
  limits : RiskLimits
  referencePrice : Option Decimal
  paused : Option String
deriving DecidableEq

namespace RiskGate

/- A gate that is open. -/
def new
    (limits : RiskLimits)
    (referencePrice : Option Decimal) : RiskGate :=
  ⟨limits, referencePrice, none⟩

/- Trading is stopped. -/
def isPaused
    (gate : RiskGate) : Bool :=
  gate.paused.isSome

/- Stop all trading. -/
def pause
    (gate : RiskGate)
    (reason : String) : RiskGate :=
  { gate with paused := some reason }

/- Let orders pass again. -/
def resume
    (gate : RiskGate) : RiskGate :=
  { gate with paused := none }

/-
  The price that an order is valued at. An order without a
  price cannot be valued when there is no reference price.
-/
def valuation?
    (gate : RiskGate)
    (order : SubmitOrder) : Option Decimal :=
  order.price.orElse fun _ => gate.referencePrice

/- The value of an order, if it has one, is within its limit. -/
def checkNotional
    (gate : RiskGate)
    (order : SubmitOrder) : Except RiskError Unit :=
  match gate.valuation? order with
  | none => .ok ()
  | some price =>
      match order.quantity.mul? price with
      | none => .error (.notionalOverflow order.quantity price)
      | some notional =>
          if gate.limits.maxNotional < notional then
            .error (.notionalTooLarge notional gate.limits.maxNotional)
          else
            .ok ()

/- An order passes the gate, or the first limit that it breaks. -/
def check
    (gate : RiskGate)
    (order : SubmitOrder) : Except RiskError Unit :=
  match gate.paused with
  | some reason => .error (.tradingPaused reason)
  | none =>
      if order.quantity ≤ 0 then
        .error (.nonPositiveQuantity order.quantity)
      else if gate.limits.maxQuantity < order.quantity then
        .error
          (.quantityTooLarge order.quantity gate.limits.maxQuantity)
      else
        gate.checkNotional order

/- An order passes the gate if it breaks none of the limits. -/
theorem check_eq_ok_iff
    {gate : RiskGate}
    {order : SubmitOrder} :
    gate.check order = .ok () ↔
      gate.paused = none ∧ ¬ order.quantity ≤ 0 ∧
        ¬ gate.limits.maxQuantity < order.quantity ∧
          gate.checkNotional order = .ok () := by
  unfold check
  cases gate.paused with
  | some reason => simp
  | none =>
      by_cases hQuantity : order.quantity ≤ 0
      · simp [hQuantity]
      · by_cases hLarge : gate.limits.maxQuantity < order.quantity
        · simp [hQuantity, hLarge]
        · simp [hQuantity, hLarge]

end RiskGate

end OrderDesk
