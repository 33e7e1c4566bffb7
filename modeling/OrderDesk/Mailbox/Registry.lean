import OrderDesk.Mailbox.Handler

/-
  This file defines registries: the handlers of a component.
  There is at most one handler for a kind and at most one
  catch-all, so it does not matter in which order they are
  registered.

  A registry is compiled into a dispatcher, in which every
  handler has a slot: the slot of the handler for a kind is
  found in an index, and the catch-all has the last one. A
  message is offered to the handler for its kind first and
  to the catch-all after that. Whoever reacts keeps it, and
  a message that comes back from all of them is unhandled.

  Key definitions include:
    * `Registry`
    * `Registry.insert`
    * `Slots`
    * `Dispatcher`
    * `Registry.compile`
    * `Registry.dispatch`
    * `DuplicateHandler`
-/

namespace OrderDesk

------------------------------------------------------------
-- Registration
------------------------------------------------------------

/- A handler is refused, since there is one like it. -/
structure DuplicateHandler where
  component : String
  messageType : String
deriving DecidableEq

namespace DuplicateHandler

/- The refusal in words. -/
def message
    (refused : DuplicateHandler) : String :=
  "Duplicate handler: " ++ refused.component ++
    " already handles " ++ refused.messageType

end DuplicateHandler

/- The handlers of a component, in the order of registration. -/
structure Registry (S P K : Type) where
  component : String
  handlers : List (Handler S P K)

namespace Registry

variable {S P K : Type} [DecidableEq K]

/- A component without handlers. -/
def empty
    (component : String) : Registry S P K :=
  ⟨component, []⟩

/- The handler that is registered for a kind, or for all. -/
def lookup
    (registry : Registry S P K)
    (kind : Option K) : Option (Handler S P K) :=
  registry.handlers.find? (·.kind = kind)

/- Register a handler. -/
def insert
    (handler : Handler S P K)
    (registry : Registry S P K) :
    Except DuplicateHandler (Registry S P K) :=
  match registry.lookup handler.kind with
  | some _ => .error ⟨registry.component, handler.typeName⟩
  | none =>
      .ok { registry with handlers := registry.handlers ++ [handler] }

end Registry

------------------------------------------------------------
-- Slots
------------------------------------------------------------

/-
  Where handlers stand in their row: every kind with the
  slot of its handler, the latest entry first, and the slot
  of the catch-all.
-/
structure Slots (K : Type) where
  index : List (K × Nat)
  catchAll : Option Nat

namespace Slots

variable {S P K : Type}

/- No handler has a slot. -/
def empty : Slots K :=
  ⟨[], none⟩

/- Enter the slot of a handler. The latest entry counts. -/
def enter
    (slots : Slots K)
    (entry : Handler S P K × Nat) : Slots K :=
  match entry.1.kind with
  | some kind =>
      { slots with index := (kind, entry.2) :: slots.index }
  | none => { slots with catchAll := some entry.2 }

/- The slots of those who are offered a payload of a kind, in turn. -/
def forKind
    [DecidableEq K]
    (slots : Slots K)
    (kind : K) : List Nat :=
  ((slots.index.find? (·.1 = kind)).map Prod.snd).toList ++
    slots.catchAll.toList

end Slots

------------------------------------------------------------
-- Dispatch
------------------------------------------------------------

/- The handlers of a component at work, and where they stand. -/
structure Dispatcher (S P K : Type) where
  handlers : List (Handler S P K)
  slots : Slots K

namespace Dispatcher

variable {S P K : Type}

/- Who is offered a payload of a kind, in turn. -/
def candidates
    [DecidableEq K]
    (dispatcher : Dispatcher S P K)
    (kind : K) : List (Handler S P K) :=
  (dispatcher.slots.forKind kind).filterMap fun slot =>
    dispatcher.handlers[slot]?

/- Offer a message to handlers, until one of them reacts. -/
def offer
    (state : S) :
    List (Handler S P K) →
      Envelope P →
        Except (Envelope P) (Reaction S P)
| [], envelope => .error envelope
| handler :: handlers, envelope =>
    match handler.react state envelope with
    | .ok reaction => .ok reaction
    | .error envelope => offer state handlers envelope

/-
  Dispatch a message: what comes of it, or the message, if
  nobody handles it.
-/
def dispatch
    [DecidableEq K]
    [Payload P K]
    (dispatcher : Dispatcher S P K)
    (state : S)
    (envelope : Envelope P) :
    Except (Envelope P) (Reaction S P) :=
  offer state
    (dispatcher.candidates (Payload.kind envelope.payload)) envelope

end Dispatcher

namespace Registry

variable {S P K : Type}

/-
  The handlers with the catch-all behind all others, which
  keep the order of registration.
-/
def ranked
    (registry : Registry S P K) : List (Handler S P K) :=
  registry.handlers.filter (·.kind.isSome) ++
    registry.handlers.filter (·.kind.isNone)

/- Give every handler a slot. -/
def compile
    (registry : Registry S P K) : Dispatcher S P K where
  handlers := registry.ranked
  slots := registry.ranked.zipIdx.foldl Slots.enter Slots.empty

/- Dispatch a message to the handlers of a component. -/
def dispatch
    [DecidableEq K]
    [Payload P K]
    (registry : Registry S P K)
    (state : S)
    (envelope : Envelope P) :
    Except (Envelope P) (Reaction S P) :=
  registry.compile.dispatch state envelope

end Registry

end OrderDesk
