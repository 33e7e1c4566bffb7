import OrderDesk.Json.Field
import OrderDesk.Order.Lifecycle

/-
  This file defines the JSON form of orders' commands and
  events.

  Records are objects with their fields in order. A decimal
  is written as the number nearest to it that a double can
  hold. It is read from an integer exactly, from any other
  number through its shortest digits, or from a string. An
  event is an object whose member `type` names what
  happened.

  Key definitions include:
    * `Decimal.toJson`
    * `Decimal.ofJson?`
    * `SubmitOrder.toJson`
    * `SubmitOrder.ofJson?`
    * `OrderEvent.toJson`
    * `OrderEvent.ofJson?`
-/

namespace OrderDesk

------------------------------------------------------------
-- Decimals
------------------------------------------------------------

namespace Decimal

/- The number that stands for a decimal. -/
def toJson
    (a : Decimal) : Json :=
  Json.number
    (Numeral.ofBinary64
      (a.toBinary64?.getD (Binary64.zero false)))

/- The decimal that a number denotes. -/
def ofNumber? :
    Number → Option Decimal
| .natural n => ofInt? n
| .negative n => ofInt? n
| .real x => ofBinary64? x

/- Read a decimal from a number or a string. -/
def ofJson? :
    Json → Option Decimal
| .number numeral => numeral.number?.bind ofNumber?
| .string s => s.bind ofText?
| _ => none

end Decimal

------------------------------------------------------------
-- Names And Identifiers
------------------------------------------------------------

namespace Uuid

/- The string that stands for an identifier. -/
def toJson
    (u : Uuid) : Json :=
  Json.text u.toText

/- Read an identifier from any of its written forms. -/
def ofJson?
    (j : Json) : Option Uuid :=
  j.text?.bind ofText?

end Uuid

namespace OrderId

/- The string that stands for an order identifier. -/
def toJson
    (id : OrderId) : Json :=
  id.uuid.toJson

/- Read an order identifier. -/
def ofJson?
    (j : Json) : Option OrderId :=
  (Uuid.ofJson? j).map OrderId.mk

end OrderId

namespace Symbol

/- The string that stands for a symbol. -/
def toJson
    (s : Symbol) : Json :=
  Json.text s.text

/- Read a symbol; its letter case is kept. -/
def ofJson?
    (j : Json) : Option Symbol :=
  j.text?.map Symbol.mk

end Symbol

namespace Side

/- The encoded name of a side. -/
def wireName :
    Side → String
| buy => "buy"
| sell => "sell"

/- The string that stands for a side. -/
def toJson
    (side : Side) : Json :=
  Json.text side.wireName

/- Read a side. -/
def ofJson?
    (j : Json) : Option Side :=
  j.oneOf? wireName all

end Side

namespace OrderType

/- The encoded name of an order type. -/
def wireName :
    OrderType → String
| market => "market"
| limit => "limit"

/- The string that stands for an order type. -/
def toJson
    (orderType : OrderType) : Json :=
  Json.text orderType.wireName

/- Read an order type. -/
def ofJson?
    (j : Json) : Option OrderType :=
  j.oneOf? wireName all

end OrderType

namespace OrderState

/- The encoded name of a state. -/
def wireName :
    OrderState → String
| initialized => "initialized"
| submitted => "submitted"
| accepted => "accepted"
| rejected => "rejected"
| working => "working"
| partiallyFilled => "partially_filled"
| filled => "filled"
| cancelled => "cancelled"
| expired => "expired"
| invalid => "invalid"
| denied => "denied"

/- The string that stands for a state. -/
def toJson
    (state : OrderState) : Json :=
  Json.text state.wireName

/- Read a state. -/
def ofJson?
    (j : Json) : Option OrderState :=
  j.oneOf? wireName all

end OrderState

namespace EventKind

/- The string that stands for a kind of events. -/
def toJson
    (kind : EventKind) : Json :=
  Json.text kind.name

/- Read a kind of events. -/
def ofJson?
    (j : Json) : Option EventKind :=
  j.oneOf? name all

/- The encoded name of the events of a kind. -/
def tag :
    EventKind → String
| submitted => "submitted"
| accepted => "accepted"
| rejected => "rejected"
| working => "working"
| partiallyFilled => "partially_filled"
| filled => "filled"
| cancelled => "cancelled"
| expired => "expired"
| invalid => "invalid"
| denied => "denied"

end EventKind

------------------------------------------------------------
-- Commands
------------------------------------------------------------

namespace SubmitOrder

/- The fields of a submission. -/
def fieldNames : List String :=
  ["order_id", "symbol", "side", "order_type", "quantity", "price"]

/- The object that stands for a submission. -/
def toJson
    (order : SubmitOrder) : Json :=
  Json.record
    [("order_id", order.orderId.toJson),
      ("symbol", order.symbol.toJson),
      ("side", order.side.toJson),
      ("order_type", order.orderType.toJson),
      ("quantity", order.quantity.toJson),
      ("price", Json.nullable Decimal.toJson order.price)]

/- Read a submission. -/
def ofJson?
    (j : Json) : Option SubmitOrder :=
  match j.fields? fieldNames with
  | some [orderId, symbol, side, orderType, quantity, price] => do
      return {
        orderId := ← orderId.bind OrderId.ofJson?
        symbol := ← symbol.bind Symbol.ofJson?
        side := ← side.bind Side.ofJson?
        orderType := ← orderType.bind OrderType.ofJson?
        quantity := ← quantity.bind Decimal.ofJson?
        price := ← Json.optional? Decimal.ofJson? price }
  | _ => none

end SubmitOrder

namespace CancelOrder

/- The fields of a cancel. -/
def fieldNames : List String :=
  ["order_id"]

/- The object that stands for a cancel. -/
def toJson
    (cancel : CancelOrder) : Json :=
  Json.record [("order_id", cancel.orderId.toJson)]

/- Read a cancel. -/
def ofJson?
    (j : Json) : Option CancelOrder :=
  match j.fields? fieldNames with
  | some [orderId] =>
      (orderId.bind OrderId.ofJson?).map CancelOrder.mk
  | _ => none

end CancelOrder

------------------------------------------------------------
-- Events
------------------------------------------------------------

namespace Fill

/- The fields of a fill. -/
def fieldNames : List String :=
  ["quantity", "price"]

/- The object that stands for a fill. -/
def toJson
    (fill : Fill) : Json :=
  Json.record
    [("quantity", fill.quantity.toJson),
      ("price", fill.price.toJson)]

/- Read a fill. -/
def ofJson?
    (j : Json) : Option Fill :=
  match j.fields? fieldNames with
  | some [quantity, price] => do
      return {
        quantity := ← quantity.bind Decimal.ofJson?
        price := ← price.bind Decimal.ofJson? }
  | _ => none

end Fill

namespace Occurrence

/- The members of an event besides its tag and its order. -/
def members :
    Occurrence → List (String × Json)
| accepted venueOrderId =>
    [("venue_order_id", Json.text venueOrderId)]
| rejected reason => [("reason", Json.text reason)]
| working venueOrderId price =>
    [("venue_order_id", Json.text venueOrderId),
      ("price", Json.nullable Decimal.toJson price)]
| partiallyFilled fill => [("fill", fill.toJson)]
| filled fill => [("fill", fill.toJson)]
| invalid reason => [("reason", Json.text reason)]
| denied reason => [("reason", Json.text reason)]
| submitted | cancelled | expired => []

/- The fields of an event of a kind besides its order. -/
def fieldNames :
    EventKind → List String
| .accepted => ["venue_order_id"]
| .rejected | .invalid | .denied => ["reason"]
| .working => ["venue_order_id", "price"]
| .partiallyFilled | .filled => ["fill"]
| .submitted | .cancelled | .expired => []

/- Put together an occurrence of a kind from its fields. -/
def ofFields? :
    EventKind → List (Option Json) → Option Occurrence
| .submitted, [] => some submitted
| .accepted, [venueOrderId] =>
    (venueOrderId.bind Json.text?).map accepted
| .rejected, [reason] => (reason.bind Json.text?).map rejected
| .working, [venueOrderId, price] => do
    return working
      (← venueOrderId.bind Json.text?)
      (← Json.optional? Decimal.ofJson? price)
| .partiallyFilled, [fill] =>
    (fill.bind Fill.ofJson?).map partiallyFilled
| .filled, [fill] => (fill.bind Fill.ofJson?).map filled
| .cancelled, [] => some cancelled
| .expired, [] => some expired
| .invalid, [reason] => (reason.bind Json.text?).map invalid
| .denied, [reason] => (reason.bind Json.text?).map denied
| _, _ => none

end Occurrence

namespace OrderEvent

/- The object that stands for an event. -/
def toJson
    (event : OrderEvent) : Json :=
  Json.record
    (("type", Json.text event.kind.tag) ::
      ("order_id", event.orderId.toJson) ::
        event.occurrence.members)

/- The kind that a tag names. -/
def kindOfTag?
    (j : Json) : Option EventKind :=
  j.text?.bind fun s =>
    EventKind.all.find? fun kind => kind.tag = s

/- Read an event of a kind from what stands beside its tag. -/
def ofUntagged?
    (kind : EventKind)
    (j : Json) : Option OrderEvent :=
  match j.fields? ("order_id" :: Occurrence.fieldNames kind) with
  | some (orderId :: fields) => do
      return {
        orderId := ← orderId.bind OrderId.ofJson?
        occurrence := ← Occurrence.ofFields? kind fields }
  | _ => none

/-
  Take the tag off an event: it is a member of an object or
  the first item of an array.
-/
def untag? :
    Json → Option (Json × Json)
| .object members closed =>
    match members.partition fun member =>
        member.1 = some "type" with
    | ([(_, tag)], others) => some (tag, .object others closed)
    | _ => none
| .array (tag :: items) closed => some (tag, .array items closed)
| _ => none

/-
  How many arrays and objects may be nested around and in an
  event.
-/
def maxDepth : Nat :=
  127

/-
  Read an event that stands inside a number of arrays and
  objects. Everything in it has to be strict, also what is
  passed over.
-/
def ofJson?
    (outside : Nat)
    (j : Json) : Option OrderEvent :=
  if j.isStrict ∧ outside + j.depth ≤ maxDepth then
    (untag? j).bind fun (tag, rest) =>
      (kindOfTag? tag).bind fun kind => ofUntagged? kind rest
  else
    none

end OrderEvent

end OrderDesk
