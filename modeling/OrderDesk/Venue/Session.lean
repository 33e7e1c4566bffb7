import OrderDesk.Message.Stamps
import OrderDesk.Timer.Basic
import OrderDesk.Timer.Timeline
import OrderDesk.Venue.Paper

/-
  This file defines a session of a paper venue in time, with
  whoever receives its reports.

  Key definitions include:
    * `VenueSession`
    * `VenueSession.send`
    * `VenueSession.advance`
    * `VenueSession.jump`
-/

namespace OrderDesk

/-
  A venue in time: the fills that are to happen, what was
  reported and when, which messages the venue had no use
  for, and what the log was told, all oldest first.
-/
structure VenueSession where
  now : Nat
  venue : PaperVenue
  timers : Timers PendingFill
  stamps : Stamps
  reports : List (Nat × Envelope TradingMessage)
  unhandled : List (Envelope TradingMessage)
  notices : List Notice

namespace VenueSession

/- A session at the start of time. -/
def new
    (venue : PaperVenue)
    (stamps : Stamps) : VenueSession :=
  ⟨0, venue, Timers.empty, stamps, [], [], []⟩

/- Go on with what came of a message. -/
def follow
    (session : VenueSession)
    (result : VenueStep) : VenueSession :=
  { session with
    venue := result.venue
    timers :=
      match result.pending with
      | none => session.timers
      | some pending =>
          (session.timers.once session.now
            result.venue.settings.fillLatencyMs pending).2
    reports :=
      session.reports ++
        result.reports.map fun envelope => (session.now, envelope)
    notices := session.notices ++ result.notices }

/- Let the venue take one message. -/
def deliver
    (session : VenueSession)
    (envelope : Envelope TradingMessage) : VenueSession :=
  let (stamp, stamps) := session.stamps.next session.now
  let result := session.venue.handle stamp envelope
  let session := { session with stamps := stamps }.follow result
  if result.isHandled then
    session
  else
    { session with unhandled := session.unhandled ++ [envelope] }

/- Let a fill happen whose time has come. -/
def settle
    (session : VenueSession)
    (pending : PendingFill) : VenueSession :=
  let (stamp, stamps) := session.stamps.next session.now
  { session with stamps := stamps }.follow
    (session.venue.settle stamp pending)

/- Let all fills happen whose time has come. -/
def wake
    (now : Nat)
    (session : VenueSession) : VenueSession :=
  let (fills, timers) := session.timers.fire now
  fills.foldl settle { session with now := now, timers := timers }

/-
  Send messages. The venue takes all of them before a fill
  can happen.
-/
def send
    (envelopes : List (Envelope TradingMessage))
    (session : VenueSession) : VenueSession :=
  (envelopes.foldl deliver session).wake session.now

/- How a session runs through time. -/
def timed : Timed VenueSession where
  deadline? session := session.timers.deadline?
  wake := wake

/- Let an amount of time pass, with a stop at every deadline. -/
def advance
    (ms : Nat)
    (session : VenueSession) : VenueSession :=
  { timed.advance (session.now + ms) session.now session with
    now := session.now + ms }

/- Let an amount of time pass at once. -/
def jump
    (ms : Nat)
    (session : VenueSession) : VenueSession :=
  timed.jump (session.now + ms) session

end VenueSession

end OrderDesk
