import OrderDesk.Engine.Basic
import OrderDesk.Message.Stamps
import OrderDesk.Throttle.Throttler
import OrderDesk.Timer.Timeline
import OrderDesk.Venue.Paper

/-
  This file defines the desk: an engine, a paper venue that
  reports back to it, and, if there is one, a throttler on
  the way from the engine to the venue.

  Messages wait in queues, and whoever is awake takes all
  that wait before anybody else does. A command travels at
  most once from the engine to the venue and back, so the
  engine, the venue and the engine again leave the queues
  empty. At one instant this happens up to three times: for
  what was sent, for the timers that are due, and for fills
  that follow at once on commands which the throttler let
  go.

  Key definitions include:
    * `Desk`
    * `Desk.drain`
    * `Desk.fire`
    * `Desk.send`
    * `Desk.advance`
    * `Desk.jump`
-/

namespace OrderDesk

/- What the timers of a desk stand for. -/
inductive Alarm where
  | rollover
  | fill (pending : PendingFill)
deriving DecidableEq

/-
  A desk in time: its parts, the messages that are on their
  way, what was published and when, and what the log was
  told, both oldest first.
-/
structure Desk where
  now : Nat
  engine : Engine
  venue : PaperVenue
  throttler : Option (Throttler (Envelope TradingMessage))
  timers : Timers Alarm
  stamps : Stamps
  toEngine : List (Envelope TradingMessage)
  toVenue : List (Envelope TradingMessage)
  published : List (Nat × Envelope TradingMessage)
  notices : List Notice

namespace Desk

/- The name of the throttler in front of the venue. -/
def throttlerName : String :=
  "venue-throttle"

/- A desk at the start of time. -/
def new
    (gate : RiskGate)
    (settings : PaperSettings)
    (throttler : Option (Throttler (Envelope TradingMessage)))
    (stamps : Stamps) : Desk where
  now := 0
  engine := Engine.new gate
  venue := PaperVenue.new settings true
  throttler := throttler
  timers := Timers.empty
  stamps := stamps
  toEngine := []
  toVenue := []
  published := []
  notices := []

------------------------------------------------------------
-- The Engine's Turn
------------------------------------------------------------

/- Send a command of the engine towards the venue. -/
def command
    (desk : Desk)
    (envelope : Envelope TradingMessage) : Desk :=
  match desk.throttler with
  | none => { desk with toVenue := desk.toVenue ++ [envelope] }
  | some throttler =>
      let (passed, throttler) := throttler.send envelope
      { desk with
        throttler := some throttler
        toVenue := desk.toVenue ++ passed }

/- Go on with what came of a message to the engine. -/
def followEngine
    (desk : Desk)
    (result : EngineStep) : Desk :=
  result.commands.foldl command
    { desk with
      engine := result.engine
      published :=
        desk.published ++
          result.events.map fun envelope => (desk.now, envelope)
      notices := desk.notices ++ result.notices }

/- Let the engine take a message. A fault is told to the log. -/
def deliverToEngine
    (desk : Desk)
    (envelope : Envelope TradingMessage) : Desk :=
  let (stamp, stamps) := desk.stamps.next desk.now
  let desk := { desk with stamps := stamps }
  match desk.engine.handle stamp envelope with
  | .ok result => desk.followEngine result
  | .error e =>
      { desk with
        notices :=
          desk.notices ++
            [.handlerFault Engine.name envelope.payload.kind.name
              e.message] }

/- Let the engine take all messages that wait for it. -/
def drainEngine
    (desk : Desk) : Desk :=
  desk.toEngine.foldl deliverToEngine { desk with toEngine := [] }

------------------------------------------------------------
-- The Venue's Turn
------------------------------------------------------------

/- Go on with what came of a message to the venue. -/
def followVenue
    (desk : Desk)
    (result : VenueStep) : Desk :=
  { desk with
    venue := result.venue
    timers :=
      match result.pending with
      | none => desk.timers
      | some pending =>
          (desk.timers.once desk.now
            result.venue.settings.fillLatencyMs (.fill pending)).2
    toEngine := desk.toEngine ++ result.reports
    notices := desk.notices ++ result.notices }

/- Let the venue take a message. -/
def deliverToVenue
    (desk : Desk)
    (envelope : Envelope TradingMessage) : Desk :=
  let (stamp, stamps) := desk.stamps.next desk.now
  { desk with stamps := stamps }.followVenue
    (desk.venue.handle stamp envelope)

/- Let the venue take all messages that wait for it. -/
def drainVenue
    (desk : Desk) : Desk :=
  desk.toVenue.foldl deliverToVenue { desk with toVenue := [] }

------------------------------------------------------------
-- Instants
------------------------------------------------------------

/- Let all messages arrive that are on their way. -/
def drain
    (desk : Desk) : Desk :=
  desk.drainEngine.drainVenue.drainEngine

/- Begin the throttler's next window. -/
def rollOver
    (desk : Desk) : Desk :=
  match desk.throttler with
  | none => desk
  | some throttler =>
      let (passed, throttler) := throttler.roll
      { desk with
        throttler := some throttler
        toVenue := desk.toVenue ++ passed }

/- Let a timer do what it stands for. -/
def ring
    (desk : Desk) :
    Alarm → Desk
| .rollover => desk.rollOver
| .fill pending =>
    let (stamp, stamps) := desk.stamps.next desk.now
    { desk with stamps := stamps }.followVenue
      (desk.venue.settle stamp pending)

/- Let all due timers fire, and then all messages arrive. -/
def fire
    (desk : Desk) : Desk :=
  let (alarms, timers) := desk.timers.fire desk.now
  (alarms.foldl ring { desk with timers := timers }).drain

/- Let everything happen that can happen now. -/
def settle
    (desk : Desk) : Desk :=
  desk.drain.fire.fire

------------------------------------------------------------
-- Operations
------------------------------------------------------------

/- Send messages to the engine. -/
def send
    (envelopes : List (Envelope TradingMessage))
    (desk : Desk) : Desk :=
  { desk with toEngine := desk.toEngine ++ envelopes }.settle

/- Stop all trading. -/
def pause
    (reason : String)
    (desk : Desk) : Desk :=
  { desk with engine := desk.engine.pause reason }

/- Let orders pass again. -/
def resume
    (desk : Desk) : Desk :=
  { desk with engine := desk.engine.resume }

/- Start the throttler, if there is one. -/
def startThrottler
    (desk : Desk) : Desk :=
  match desk.throttler with
  | none => desk
  | some throttler =>
      let (passed, throttler, timers, notices) :=
        throttler.start desk.now .rollover desk.timers
      { desk with
        throttler := some throttler
        timers := timers
        toVenue := desk.toVenue ++ passed
        notices := desk.notices ++ notices }.settle

/- Stop the throttler, if there is one. -/
def stopThrottler
    (desk : Desk) : Desk :=
  match desk.throttler with
  | none => desk
  | some throttler =>
      let (throttler, timers, notices) := throttler.stop desk.timers
      { desk with
        throttler := some throttler
        timers := timers
        notices := desk.notices ++ notices }

/- Let everything happen that happens at an instant. -/
def wake
    (now : Nat)
    (desk : Desk) : Desk :=
  { desk with now := now }.settle

/- How a desk runs through time. -/
def timed : Timed Desk where
  deadline? desk := desk.timers.deadline?
  wake := wake

/- Let an amount of time pass, with a stop at every deadline. -/
def advance
    (ms : Nat)
    (desk : Desk) : Desk :=
  { timed.advance (desk.now + ms) desk.now desk with
    now := desk.now + ms }

/- Let an amount of time pass at once. -/
def jump
    (ms : Nat)
    (desk : Desk) : Desk :=
  timed.jump (desk.now + ms) desk

end Desk

end OrderDesk
