import OrderDesk.Symbol
import OrderDesk.Uuid
import OrderDesk.Validation

/-
  This file defines what clients ask the desk to do: submit
  an order or cancel one, and which submissions make sense
  on their own.

  Key definitions include:
    * `OrderId`
    * `Side`
    * `OrderType`
    * `SubmitOrder`
    * `SubmitOrder.validate`
    * `CancelOrder`
-/

namespace OrderDesk

------------------------------------------------------------
-- Terms Of An Order
------------------------------------------------------------

/- The client's identifier of an order. -/
structure OrderId where
  uuid : Uuid
deriving DecidableEq

namespace OrderId

/- The order identifier whose value is `n`. -/
def ofNat
    (n : Nat) : OrderId :=
  ⟨Uuid.ofNat n⟩

instance : ToString OrderId :=
  ⟨fun id => id.uuid.toText⟩

end OrderId

/- Whether the client buys or sells. -/
inductive Side where
  | buy
  | sell
deriving DecidableEq

namespace Side

/- The side as it is shown. -/
def display :
    Side → String
| buy => "BUY"
| sell => "SELL"

/- The name of the side. -/
def name :
    Side → String
| buy => "Buy"
| sell => "Sell"

/- Every side. -/
def all : List Side :=
  [buy, sell]

end Side

/- Whether the client names a price or takes the market's. -/
inductive OrderType where
  | market
  | limit
deriving DecidableEq

namespace OrderType

/- The type as it is shown. -/
def display :
    OrderType → String
| market => "MARKET"
| limit => "LIMIT"

/- The name of the type. -/
def name :
    OrderType → String
| market => "Market"
| limit => "Limit"

/- Every type. -/
def all : List OrderType :=
  [market, limit]

end OrderType

------------------------------------------------------------
-- Commands
------------------------------------------------------------

/- Ask for a new order. -/
structure SubmitOrder where
  orderId : OrderId
  symbol : Symbol
  side : Side
  orderType : OrderType
  quantity : Decimal
  price : Option Decimal
deriving DecidableEq

/- Ask for an order to be withdrawn. -/
structure CancelOrder where
  orderId : OrderId
deriving DecidableEq

namespace SubmitOrder

/-
  Checks that hold whatever the limits are: a limit order
  carries a positive price, a market order carries none.
-/
def validate
    (order : SubmitOrder) : Except ValidationError Unit :=
  match order.orderType, order.price with
  | .limit, none => .error .limitWithoutPrice
  | .limit, some price =>
      if price ≤ 0 then
        .error (.limitPriceNotPositive price)
      else
        .ok ()
  | .market, some price => .error (.marketWithPrice price)
  | .market, none => .ok ()

end SubmitOrder

end OrderDesk
