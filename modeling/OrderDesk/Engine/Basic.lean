import OrderDesk.Engine.Blotter
import OrderDesk.Message.Trading
import OrderDesk.Notice
import OrderDesk.RiskGate

/-
  This file defines the engine, which owns every order.
  Commands come from clients and reports from a venue. Each
  drives the state of one order, and whatever happens to an
  order is published as an event.

  A command goes on to the venue as it came. All that the
  engine has to say itself is a new event, and one message
  gives rise to at most one.

  Key definitions include:
    * `Engine`
    * `EngineStep`
    * `Outgoing`
    * `EngineStep.outgoing`
    * `Engine.admission`
    * `Engine.onSubmit`
    * `Engine.onCancel`
    * `Engine.onReport`
    * `Engine.handle`
-/

namespace OrderDesk

/- The engine: its orders, and the gate that they pass. -/
structure Engine where
  blotter : Blotter
  gate : RiskGate
deriving DecidableEq

/-
  What comes of one message: the engine afterwards, the
  messages for observers and for the venue, and what the log
  is told.
-/
structure EngineStep where
  engine : Engine
  events : List (Envelope TradingMessage) := []
  commands : List (Envelope TradingMessage) := []
  notices : List Notice := []
deriving DecidableEq

/- A message that an engine sends, to observers or to the venue. -/
inductive Outgoing where
  | published (envelope : Envelope TradingMessage)
  | forwarded (envelope : Envelope TradingMessage)

namespace Outgoing

/- The message, if it goes to observers. -/
def published? :
    Outgoing → Option (Envelope TradingMessage)
| published envelope => some envelope
| forwarded _ => none

/- The message, if it goes to the venue. -/
def forwarded? :
    Outgoing → Option (Envelope TradingMessage)
| published _ => none
| forwarded envelope => some envelope

end Outgoing

namespace EngineStep

/-
  What comes of one message, in the order of sending. An
  engine publishes what happened to an order before it sends
  the command on.
-/
def outgoing
    (step : EngineStep) : List Outgoing :=
  step.events.map .published ++ step.commands.map .forwarded

theorem published_outgoing
    (step : EngineStep) :
    step.outgoing.filterMap Outgoing.published? = step.events := by
  simp [outgoing, List.filterMap_append, List.filterMap_map,
    Function.comp_def, Outgoing.published?]

theorem forwarded_outgoing
    (step : EngineStep) :
    step.outgoing.filterMap Outgoing.forwarded? =
      step.commands := by
  simp [outgoing, List.filterMap_append, List.filterMap_map,
    Function.comp_def, Outgoing.forwarded?]

end EngineStep

namespace Engine

/- An engine without orders. -/
def new
    (gate : RiskGate) : Engine :=
  ⟨Blotter.empty, gate⟩

/- The name under which the engine receives messages. -/
def name : String :=
  "execution-engine"

/- The engine with an order filed in its blotter. -/
def withOrder
    (engine : Engine)
    (id : OrderId)
    (order : Order) : Engine :=
  { engine with blotter := engine.blotter.put id order }

/- A new event about an order. -/
def publication
    (stamp : Stamp)
    (event : OrderEvent) : Envelope TradingMessage :=
  Envelope.event stamp (.orderEvent event)

------------------------------------------------------------
-- Submissions
------------------------------------------------------------

/-
  What happens to a new order first: it is invalid, or it is
  denied by the gate, or it is submitted to the venue.
-/
def admission
    (engine : Engine)
    (command : SubmitOrder) : Occurrence × List Notice :=
  match command.validate with
  | .error e =>
      (.invalid e.message, [.orderInvalid command.orderId e.message])
  | .ok () =>
      match engine.gate.check command with
      | .error e =>
          (.denied e.message, [.orderDenied command.orderId e.message])
      | .ok () => (.submitted, [])

/-
  Take a submission. An identifier that was used before is
  ignored. A new order goes to the venue if nothing speaks
  against it.
-/
def onSubmit
    (stamp : Stamp)
    (engine : Engine)
    (header : Header)
    (command : SubmitOrder) : Except OrderError EngineStep :=
  if (engine.blotter.find? command.orderId).isSome then
    .ok { engine, notices := [.duplicateOrder command.orderId] }
  else
    let (occurrence, notices) := engine.admission command
    let event : OrderEvent := ⟨command.orderId, occurrence⟩
    ((Order.new command).apply event).map fun order =>
      { engine := engine.withOrder command.orderId order
        events := [publication stamp event]
        commands :=
          if occurrence = .submitted then
            [⟨header, .submitOrder command⟩]
          else
            []
        notices }

------------------------------------------------------------
-- Cancels
------------------------------------------------------------

/- Why a cancel cannot be honoured, if it cannot. -/
def cancelRefusal?
    (engine : Engine)
    (id : OrderId) : Option CancelRejected :=
  match engine.blotter.find? id with
  | none => some ⟨id, none, "unknown order"⟩
  | some order =>
      if order.canApply .cancelled then
        none
      else
        some
          ⟨id, some order.state,
            "order cannot be cancelled while " ++ order.state.display⟩

/- Take a cancel: refuse it or let the venue decide. -/
def onCancel
    (stamp : Stamp)
    (engine : Engine)
    (header : Header)
    (cancel : CancelOrder) : EngineStep :=
  match engine.cancelRefusal? cancel.orderId with
  | some refusal =>
      { engine
        events := [Envelope.event stamp (.cancelRejected refusal)]
        notices := [.cancelRejected cancel.orderId refusal.reason] }
  | none =>
      { engine, commands := [⟨header, .cancelOrder cancel⟩] }

------------------------------------------------------------
-- Reports
------------------------------------------------------------

/- How observers are told that a report did not fit its order. -/
def reportRefusal
    (order : Order)
    (event : OrderEvent) :
    OrderError → TransitionRejected
| .transition refused => ⟨event.orderId, refused.state, refused.trigger⟩
| .fillOverflow _ => ⟨event.orderId, order.state, event.kind⟩

/-
  Take a report. If it fits its order, the order changes and
  the report is published; otherwise the refusal is.
-/
def onReport
    (stamp : Stamp)
    (engine : Engine)
    (event : OrderEvent) : EngineStep :=
  match engine.blotter.find? event.orderId with
  | none =>
      { engine, notices := [.unknownOrder event.orderId event.kind] }
  | some order =>
      match order.apply event with
      | .ok order =>
          { engine := engine.withOrder event.orderId order
            events := [publication stamp event] }
      | .error e =>
          { engine
            events :=
              [Envelope.event stamp
                (.transitionRejected (reportRefusal order event e))]
            notices := [.reportRejected event.orderId e.message] }

------------------------------------------------------------
-- Messages
------------------------------------------------------------

/-
  Take a message. Refusals of others are handed on to
  observers as they came.
-/
def handle
    (stamp : Stamp)
    (engine : Engine)
    (envelope : Envelope TradingMessage) :
    Except OrderError EngineStep :=
  match envelope.payload with
  | .submitOrder command => engine.onSubmit stamp envelope.header command
  | .cancelOrder cancel => .ok (engine.onCancel stamp envelope.header cancel)
  | .orderEvent event => .ok (engine.onReport stamp event)
  | .cancelRejected _ => .ok { engine, events := [envelope] }
  | .transitionRejected _ => .ok { engine, events := [envelope] }

/- Stop all trading. -/
def pause
    (engine : Engine)
    (reason : String) : Engine :=
  { engine with gate := engine.gate.pause reason }

/- Let orders pass again. -/
def resume
    (engine : Engine) : Engine :=
  { engine with gate := engine.gate.resume }

end Engine

end OrderDesk
