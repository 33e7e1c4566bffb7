import OrderDesk.Proofs.Desk.Schedule

/-
  This file cuts the life of a desk into beats. In one beat
  a client asks for something, the engine or the venue takes
  one message, the timers that are due fire, or some time
  passes. Beats come in any order: messages may wait as long
  as they like, but time stops at every deadline.

  Time may also pass at once over several deadlines. Then
  all timers that are due by the end fire before anything
  else happens.

  Key definitions include:
    * `Beat`
    * `Desk.beat`
    * `Desk.live`
    * `Desk.takings`
    * `Desk.AllBookable`
-/

namespace OrderDesk

/-
  What can happen next at a desk: a client asks for
  something; the engine or the venue takes its oldest
  message; the timers that are due fire; time passes, with a
  stop at the next deadline or over all of them at once; the
  gate is shut or opened; the throttler is started or
  stopped.
-/
inductive Beat where
  | ask (request : Request)
  | serve
  | deliver
  | fire
  | wait (ms : Nat)
  | jump (ms : Nat)
  | pause (reason : String)
  | resume
  | start
  | stop

namespace Desk

/- A request of a client waits for the engine. -/
def ask
    (desk : Desk)
    (request : Request) : Desk :=
  { desk with toEngine := desk.toEngine ++ [request.envelope] }

/- The engine takes its oldest message. -/
def serve
    (desk : Desk) : Desk :=
  match desk.toEngine with
  | [] => desk
  | envelope :: rest =>
      { desk with toEngine := rest }.deliverToEngine envelope

/- The venue takes its oldest message. -/
def deliver
    (desk : Desk) : Desk :=
  match desk.toVenue with
  | [] => desk
  | envelope :: rest =>
      { desk with toVenue := rest }.deliverToVenue envelope

/- All timers that are due fire. -/
def ringDue
    (desk : Desk) : Desk :=
  let (alarms, timers) := desk.timers.fire desk.now
  alarms.foldl ring { desk with timers := timers }

/- The time after a wait that ends at the next deadline. -/
def timeAfter
    (desk : Desk)
    (ms : Nat) : Nat :=
  match desk.timers.deadline? with
  | none => desk.now + ms
  | some deadline => max desk.now (min (desk.now + ms) deadline)

/-
  Start the throttler, if there is one. What it lets pass is
  still to be taken.
-/
def startWindow
    (desk : Desk) : Desk :=
  match desk.throttler with
  | none => desk
  | some throttler =>
      let (passed, throttler, timers, notices) :=
        throttler.start desk.now .rollover desk.timers
      { desk with
        throttler := some throttler
        timers := timers
        toVenue := desk.toVenue ++ passed
        notices := desk.notices ++ notices }

/- What happens in a beat. -/
def beat
    (desk : Desk) :
    Beat → Desk
| .ask request => desk.ask request
| .serve => desk.serve
| .deliver => desk.deliver
| .fire => desk.ringDue
| .wait ms => { desk with now := desk.timeAfter ms }
| .jump ms => { desk with now := desk.now + ms }.ringDue
| .pause reason => desk.pause reason
| .resume => desk.resume
| .start => desk.startWindow
| .stop => desk.stopThrottler

/- What happens in beats, one after the other. -/
def live
    (desk : Desk)
    (beats : List Beat) : Desk :=
  beats.foldl beat desk

/- The message that the venue takes in a beat, and when. -/
def taking?
    (desk : Desk) :
    Beat → Option (Nat × Envelope TradingMessage)
| .deliver =>
    desk.toVenue.head?.map fun envelope => (desk.now, envelope)
| _ => none

/- The messages that the venue takes in the course of beats. -/
def takings :
    Desk → List Beat → List (Nat × Envelope TradingMessage)
| _, [] => []
| desk, beat :: rest =>
    (desk.taking? beat).toList ++ (desk.beat beat).takings rest

section

variable {desk : Desk} {envelope : Envelope TradingMessage}
variable {rest : List (Envelope TradingMessage)}
variable {step : EngineStep}

theorem deliverToEngine_eq
    (hHandle :
      desk.engine.handle (desk.stamps.next desk.now).1 envelope =
        .ok step) :
    desk.deliverToEngine envelope =
      { desk with
        stamps := (desk.stamps.next desk.now).2 }.followEngine
        step := by
  unfold deliverToEngine
  simp only [hHandle]

theorem serve_eq
    (hQueue : desk.toEngine = envelope :: rest)
    (hHandle :
      desk.engine.handle (desk.stamps.next desk.now).1 envelope =
        .ok step) :
    desk.serve =
      { desk with
        toEngine := rest
        stamps := (desk.stamps.next desk.now).2 }.followEngine
        step := by
  unfold serve deliverToEngine
  simp only [hQueue, hHandle]

theorem deliver_eq
    (hQueue : desk.toVenue = envelope :: rest) :
    desk.deliver =
      { desk with
        toVenue := rest
        stamps := (desk.stamps.next desk.now).2 }.followVenue
        (desk.venue.handle (desk.stamps.next desk.now).1
          envelope) := by
  unfold deliver deliverToVenue
  rw [hQueue]

end

/-
  If the engine takes the report of a fill in a beat, the
  order can account for that fill.
-/
def Bookable
    (desk : Desk) :
    Beat → Prop
| .serve =>
    desk.asFloor.Accountable
      (.serve (desk.stamps.next desk.now).1)
| _ => True

instance decidableBookable
    (desk : Desk) :
    (beat : Beat) → Decidable (desk.Bookable beat)
| .serve =>
    inferInstanceAs
      (Decidable
        (desk.asFloor.Accountable
          (.serve (desk.stamps.next desk.now).1)))
| .ask _ | .deliver | .fire | .wait _ | .jump _ | .pause _
| .resume | .start | .stop => isTrue trivial

/- Every fill that the engine takes in the course of beats is bookable. -/
def AllBookable :
    Desk → List Beat → Prop
| _, [] => True
| desk, beat :: rest =>
    desk.Bookable beat ∧ AllBookable (desk.beat beat) rest

instance decidableAllBookable :
    (desk : Desk) →
      (beats : List Beat) →
        Decidable (desk.AllBookable beats)
| _, [] => isTrue trivial
| desk, beat :: rest =>
    have := decidableAllBookable (desk.beat beat) rest
    inferInstanceAs
      (Decidable
        (desk.Bookable beat ∧ AllBookable (desk.beat beat) rest))

/-
  Nothing is in flight: no message waits for the engine, for
  the venue or in the window, and no timer stands for a
  fill. The timer of the throttler may go on.
-/
structure IsSettled
    (desk : Desk) : Prop where
  toEngine : desk.toEngine = []
  toVenue : desk.toVenue = []
  waiting : desk.asFloor.waiting = []
  fills : fillsOf desk.timers.pending = []

end Desk

end OrderDesk
