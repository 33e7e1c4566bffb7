import OrderDesk.Decimal.Text

/-
  This file defines why a value is refused when it is built.
  Each cause is a constructor; its wording is in one place.

  Key definitions include:
    * `ValidationError`
    * `ValidationError.reason`
    * `ValidationError.message`
-/

namespace OrderDesk

/- The settings that have to be positive. -/
inductive PositiveSetting where
  | throttleInterval
  | throttleLimit
  | orderQuantity
  | orderNotional
  | referencePrice
deriving DecidableEq

namespace PositiveSetting

/- The section and key that hold the setting. -/
def path :
    PositiveSetting → String
| throttleInterval => "throttle.interval_ms"
| throttleLimit => "throttle.max_per_interval"
| orderQuantity => "risk.max_order_quantity"
| orderNotional => "risk.max_order_notional"
| referencePrice => "paper.reference_price"

end PositiveSetting

/- Why a value is refused when it is built. -/
inductive ValidationError where
  | emptyTransitionTable
  | throttlerInterval (name : String)
  | throttlerLimit (name : String)
  | limitWithoutPrice
  | limitPriceNotPositive (price : Decimal)
  | marketWithPrice (price : Decimal)
  | nilMessageId
  | unsetTimestamp
  | uncorrelatedResponse
  | settingNotPositive (setting : PositiveSetting)
deriving DecidableEq

namespace ValidationError

/- What is wrong with the value. -/
def reason :
    ValidationError → String
| emptyTransitionTable => "transition table must not be empty"
| throttlerInterval name =>
    "throttler " ++ name ++ ": interval must be positive"
| throttlerLimit name =>
    "throttler " ++ name ++ ": limit must be positive"
| limitWithoutPrice => "limit order without a price"
| limitPriceNotPositive price =>
    "limit price " ++ price.toText ++ " must be positive"
| marketWithPrice price =>
    "market order must not carry a price, got " ++ price.toText
| nilMessageId => "message id must not be nil"
| unsetTimestamp => "message timestamp must be set"
| uncorrelatedResponse => "response must carry a correlation id"
| settingNotPositive setting => setting.path ++ " must be positive"

/- The error as it is shown. -/
def message
    (e : ValidationError) : String :=
  "Validation: " ++ e.reason

end ValidationError

end OrderDesk
