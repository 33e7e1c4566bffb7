import OrderDesk.Message.Header

/-
  This file defines messages: a payload in an envelope with
  a header. An envelope is never changed; its payload can be
  looked at as a member of a family of payloads or as one
  certain kind of them, and the header stays the same.

  Key definitions include:
    * `Envelope`
    * `Envelope.make`
    * `Envelope.response`
    * `Envelope.tryMap`
    * `Envelope.widen`
    * `Payload`
    * `Variant`
-/

namespace OrderDesk

------------------------------------------------------------
-- Envelopes
------------------------------------------------------------

/- A header and a payload. -/
structure Envelope (P : Type) where
  header : Header
  payload : P
deriving DecidableEq

namespace Envelope

variable {P U : Type}

/- A new message of a category. -/
def make
    (stamp : Stamp)
    (category : Category)
    (payload : P) : Envelope P :=
  ⟨Header.stamped stamp category none, payload⟩

/- A new command. -/
def command
    (stamp : Stamp)
    (payload : P) : Envelope P :=
  make stamp .command payload

/- A new event. -/
def event
    (stamp : Stamp)
    (payload : P) : Envelope P :=
  make stamp .event payload

/- A new document. -/
def document
    (stamp : Stamp)
    (payload : P) : Envelope P :=
  make stamp .document payload

/- A new request. -/
def request
    (stamp : Stamp)
    (payload : P) : Envelope P :=
  make stamp .request payload

/- A new response to the request with the given identity. -/
def response
    (stamp : Stamp)
    (payload : P)
    (requestId : Uuid) : Envelope P :=
  ⟨Header.stamped stamp .response (some requestId), payload⟩

/- The identity of a message. -/
def id
    (envelope : Envelope P) : Uuid :=
  envelope.header.id

/- The category of a message. -/
def category
    (envelope : Envelope P) : Category :=
  envelope.header.category

/- The identity of the request that a message answers. -/
def correlationId
    (envelope : Envelope P) : Option Uuid :=
  envelope.header.correlationId

/-
  Put another payload under the same header. If the payload
  cannot be turned into it, the message is given back.
-/
def tryMap
    (envelope : Envelope P)
    (f : P → Except P U) :
    Except (Envelope P) (Envelope U) :=
  match f envelope.payload with
  | .ok payload => .ok ⟨envelope.header, payload⟩
  | .error payload => .error ⟨envelope.header, payload⟩

/- Look at a payload as a member of its family. -/
def widen
    (embed : P → U)
    (envelope : Envelope P) : Envelope U :=
  ⟨envelope.header, embed envelope.payload⟩

end Envelope

------------------------------------------------------------
-- Families Of Payloads
------------------------------------------------------------

/-
  A family of payloads, each of which is of a certain kind.
  Every kind has a name.
-/
class Payload
    (P : Type)
    (K : outParam Type) where
  kind : P → K
  kindName : K → String

/-
  One kind of payload in a family: how a payload of the kind
  is taken out of the family and put into it.
-/
structure Variant (P K T : Type) where
  kind : K
  extract : P → Except P T
  embed : T → P

end OrderDesk
