import OrderDesk.Message.Envelope

/-
  This file defines handlers: what a component does with a
  message. A handler changes the state of its component at
  once and may then rest for a while before it comes to an
  end. It may end well, with an error, or in a panic.

  A handler is meant for one kind of payload, or it is a
  catch-all for the whole family. One that is meant for a
  kind may still find that a payload is not what it can
  work on, and then it gives the message back.

  Key definitions include:
    * `Ending`
    * `Effect`
    * `Reaction`
    * `Handler`
    * `Handler.typed`
    * `Handler.catchAll`
-/

namespace OrderDesk

------------------------------------------------------------
-- What A Handler Does
------------------------------------------------------------

/-
  How a handler ends. A panic has a text, unless what it
  was raised with is not a text.
-/
inductive Ending where
  | done
  | failed (error : String)
  | panicked (text : Option String)
deriving DecidableEq

namespace Ending

/- What the log is told about an ending, if it is a fault. -/
def fault? :
    Ending → Option String
| done => none
| failed error => some error
| panicked text =>
    some ("handler panicked: " ++ text.getD "unknown panic")

end Ending

/-
  What a handler does to the world around its component: it
  takes a note, sends a new event with a payload, or passes
  a message on as it is.
-/
inductive Effect (P : Type) where
  | note (text : String) (category : Option Category)
  | emit (target : String) (payload : P)
  | pass (target : String) (envelope : Envelope P)
deriving DecidableEq

/- What is left of a handler while it rests. -/
structure Remainder (P : Type) where
  effects : List (Effect P)
  ending : Ending
deriving DecidableEq

/-
  What comes of a message: the new state of the component,
  what happens at once, how many milliseconds the handler
  rests, and what happens after that. A handler that does
  not rest goes on at once.
-/
structure Reaction (S P : Type) where
  state : S
  effects : List (Effect P)
  rest : Nat
  remainder : Remainder P

namespace Reaction

variable {S P : Type}

/- A reaction that is over at once. -/
def immediate
    (state : S)
    (effects : List (Effect P))
    (ending : Ending) : Reaction S P :=
  ⟨state, effects, 0, [], ending⟩

end Reaction

------------------------------------------------------------
-- Handlers
------------------------------------------------------------

/-
  A handler of a component with states `S` for payloads `P`:
  the kind that it is meant for, the name of what it
  handles, and what it does. It either reacts or gives the
  message back.
-/
structure Handler (S P K : Type) where
  kind : Option K
  typeName : String
  react : S → Envelope P → Except (Envelope P) (Reaction S P)

namespace Handler

variable {S P K T : Type}

/- A handler for one kind of payload. -/
def typed
    (variant : Variant P K T)
    (typeName : String)
    (react : S → Envelope T → Reaction S P) :
    Handler S P K where
  kind := some variant.kind
  typeName := typeName
  react state envelope :=
    (envelope.tryMap variant.extract).map (react state)

/- A handler for all kinds of payload. -/
def catchAll
    (typeName : String)
    (react : S → Envelope P → Reaction S P) :
    Handler S P K where
  kind := none
  typeName := typeName
  react state envelope := .ok (react state envelope)

end Handler

end OrderDesk
