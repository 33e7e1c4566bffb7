import OrderDesk.Message.Trading
import OrderDesk.Wire.Decode
import OrderDesk.Wire.Order

/-
  This file defines the JSON form of messages: headers,
  envelopes and rejections.

  A header that is read has to be a valid one. In an
  envelope the header and the payload are looked at in the
  order in which they are written.

  Key definitions include:
    * `Header.toJson`
    * `Header.ofJson`
    * `Envelope.toJson`
    * `Envelope.ofJson`
    * `CancelRejected.ofJson?`
    * `TransitionRejected.ofJson?`
-/

namespace OrderDesk

open Wire

------------------------------------------------------------
-- Rejections
------------------------------------------------------------

namespace CancelRejected

/- The fields of a rejected cancel. -/
def fieldNames : List String :=
  ["order_id", "state", "reason"]

/- The object that stands for a rejected cancel. -/
def toJson
    (rejection : CancelRejected) : Json :=
  Json.record
    [("order_id", rejection.orderId.toJson),
      ("state", Json.nullable OrderState.toJson rejection.state),
      ("reason", Json.text rejection.reason)]

/- Read a rejected cancel. -/
def ofJson?
    (j : Json) : Option CancelRejected :=
  match j.fields? fieldNames with
  | some [orderId, state, reason] => do
      return {
        orderId := ← orderId.bind OrderId.ofJson?
        state := ← Json.optional? OrderState.ofJson? state
        reason := ← reason.bind Json.text? }
  | _ => none

end CancelRejected

namespace TransitionRejected

/- The fields of a rejected transition. -/
def fieldNames : List String :=
  ["order_id", "state", "trigger"]

/- The object that stands for a rejected transition. -/
def toJson
    (rejection : TransitionRejected) : Json :=
  Json.record
    [("order_id", rejection.orderId.toJson),
      ("state", rejection.state.toJson),
      ("trigger", rejection.trigger.toJson)]

/- Read a rejected transition. -/
def ofJson?
    (j : Json) : Option TransitionRejected :=
  match j.fields? fieldNames with
  | some [orderId, state, trigger] => do
      return {
        orderId := ← orderId.bind OrderId.ofJson?
        state := ← state.bind OrderState.ofJson?
        trigger := ← trigger.bind EventKind.ofJson? }
  | _ => none

end TransitionRejected

------------------------------------------------------------
-- Headers
------------------------------------------------------------

namespace Category

/- The string that stands for a category. -/
def toJson
    (category : Category) : Json :=
  Json.text category.display

/- Read a category. -/
def ofJson?
    (j : Json) : Option Category :=
  j.oneOf? display all

end Category

namespace Timestamp

/- The string that stands for a point in time. -/
def toJson
    (t : Timestamp) : Json :=
  Json.text t.toText

/- Read a point in time. -/
def ofJson?
    (j : Json) : Option Timestamp :=
  j.text?.bind ofText?

end Timestamp

namespace Header

/- The fields of a header. -/
def fieldNames : List String :=
  ["id", "timestamp", "category", "correlation_id"]

/- The object that stands for a header. -/
def toJson
    (header : Header) : Json :=
  Json.record
    [("id", header.id.toJson),
      ("timestamp", header.timestamp.toJson),
      ("category", header.category.toJson),
      ("correlation_id",
        Json.nullable Uuid.toJson header.correlationId)]

/- Read the fields of a header, without asking whether they are valid. -/
def unchecked?
    (j : Json) : Option Header :=
  match j.fields? fieldNames with
  | some [id, timestamp, category, correlationId] => do
      return {
        id := ← id.bind Uuid.ofJson?
        timestamp := ← timestamp.bind Timestamp.ofJson?
        category := ← category.bind Category.ofJson?
        correlationId := ← Json.optional? Uuid.ofJson? correlationId }
  | _ => none

/- Read a header. -/
def ofJson
    (j : Json) : Except DecodeError Header :=
  (wellFormed (unchecked? j)).bind fun header =>
    match ofParts header.id header.timestamp header.category
        header.correlationId with
    | .ok header => .ok header
    | .error e => .error (.invalid e)

end Header

------------------------------------------------------------
-- Envelopes
------------------------------------------------------------

namespace Envelope

variable {P : Type}

/- The object that stands for an envelope. -/
def toJson
    (encode : P → Json)
    (envelope : Envelope P) : Json :=
  Json.record
    [("header", envelope.header.toJson),
      ("payload", encode envelope.payload)]

/- The parts of an envelope that were read so far. -/
structure Parts (P : Type) where
  header : Option Header
  payload : Option P

namespace Parts

/- Nothing has been read. -/
def empty : Parts P :=
  ⟨none, none⟩

/- Read one more member. A part may be given once. -/
def addMember
    (read : Json → Option P)
    (parts : Parts P) :
    Option String × Json → Except DecodeError (Parts P)
| (none, _) => .error .malformed
| (some key, value) =>
    if key = "header" then
      if parts.header.isSome then
        .error .malformed
      else
        (Header.ofJson value).map fun header =>
          { parts with header := some header }
    else if key = "payload" then
      if parts.payload.isSome then
        .error .malformed
      else
        (wellFormed (read value)).map fun payload =>
          { parts with payload := some payload }
    else
      .ok parts

/- The envelope that the parts make, if none is missing. -/
def complete? :
    Parts P → Option (Envelope P)
| ⟨some header, some payload⟩ => some ⟨header, payload⟩
| _ => none

end Parts

/-
  Read an envelope, its parts in the order in which they are
  written.
-/
def ofJson
    (read : Json → Option P) :
    Json → Except DecodeError (Envelope P)
| .object members closed => do
    let parts ← members.foldlM (Parts.addMember read) Parts.empty
    wellFormed (if closed then parts.complete? else none)
| .array items closed => do
    let parts ←
      ([some "header", some "payload"].zip items).foldlM
        (Parts.addMember read) Parts.empty
    wellFormed
      (if closed ∧ items.length = 2 then parts.complete? else none)
| _ => .error .malformed

end Envelope

end OrderDesk
