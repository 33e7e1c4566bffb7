import OrderDesk.Timestamp
import OrderDesk.Uuid
import OrderDesk.Validation

/-
  This file defines what every message carries besides its
  payload.

  Key definitions include:
    * `Category`
    * `Header`
    * `Header.ofParts`
    * `Stamp`
    * `Header.stamped`
-/

namespace OrderDesk

/- What a message means to its receiver. -/
inductive Category where
  | command
  | event
  | document
  | request
  | response
deriving DecidableEq

namespace Category

/- Every category. -/
def all : List Category :=
  [command, event, document, request, response]

/- The category as it is shown. -/
def display :
    Category → String
| command => "command"
| event => "event"
| document => "document"
| request => "request"
| response => "response"

/- The name of the category. -/
def name :
    Category → String
| command => "Command"
| event => "Event"
| document => "Document"
| request => "Request"
| response => "Response"

end Category

/-
  The identity of a message, when it was made, its category,
  and for a response the identity of the request that it
  answers.
-/
structure Header where
  id : Uuid
  timestamp : Timestamp
  category : Category
  correlationId : Option Uuid
deriving DecidableEq

/- A fresh identity and the time at which it was drawn. -/
structure Stamp where
  id : Uuid
  time : Timestamp
deriving DecidableEq

namespace Header

/- The header of a new message. -/
def stamped
    (stamp : Stamp)
    (category : Category)
    (correlationId : Option Uuid) : Header :=
  ⟨stamp.id, stamp.time, category, correlationId⟩

/-
  The header of a message from elsewhere. It needs an
  identity and a time, and a response needs to say what it
  answers.
-/
def ofParts
    (id : Uuid)
    (timestamp : Timestamp)
    (category : Category)
    (correlationId : Option Uuid) :
    Except ValidationError Header :=
  if id = Uuid.nil then
    .error .nilMessageId
  else if timestamp = Timestamp.epoch then
    .error .unsetTimestamp
  else if category = .response ∧ correlationId = none then
    .error .uncorrelatedResponse
  else
    .ok ⟨id, timestamp, category, correlationId⟩

end Header

end OrderDesk
