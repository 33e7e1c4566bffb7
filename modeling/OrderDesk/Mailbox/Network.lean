import OrderDesk.Endpoint
import OrderDesk.Mailbox.Basic
import OrderDesk.Message.Stamps
import OrderDesk.Timer.Basic
import OrderDesk.Timer.Timeline

/-
  This file defines networks: mailboxes in time that send
  messages to one another.

  A worker is ready when it has received something, is
  started, is told to stop, or has rested long enough.
  Workers take turns in the order in which they became
  ready, and a worker goes on until it waits again. Whoever
  sends goes on first, and of all that is due at an instant
  nothing is handled before all of it has happened.

  Key definitions include:
    * `Network`
    * `Network.deliver`
    * `Network.settle`
    * `Network.send`
    * `Network.stop`
    * `Network.advance`
    * `Network.jump`
-/

namespace OrderDesk

------------------------------------------------------------
-- Networks
------------------------------------------------------------

/- Something that a handler noted. -/
structure Note where
  time : Nat
  component : String
  text : String
  category : Option Category
deriving DecidableEq

/-
  Mailboxes in time, by name and in the order in which they
  were made: whose turn it is next, the timers of those that
  rest, who is held by the one that started it, what was
  noted and what the log was told, both oldest first.
-/
structure Network (S P K : Type) where
  now : Nat
  mailboxes : List (String × Mailbox S P K)
  ready : List String
  timers : Timers String
  held : List String
  stamps : Stamps
  notes : List Note
  notices : List Notice

namespace Network

variable {S P K : Type}

/- No mailboxes, at the start of time. -/
def empty
    (stamps : Stamps) : Network S P K where
  now := 0
  mailboxes := []
  ready := []
  timers := Timers.empty
  held := []
  stamps := stamps
  notes := []
  notices := []

/- The mailbox of a name. -/
def mailbox?
    (network : Network S P K)
    (name : String) : Option (Mailbox S P K) :=
  network.mailboxes.lookup name

/- Change the mailbox of a name. -/
def modify
    (name : String)
    (f : Mailbox S P K → Mailbox S P K)
    (network : Network S P K) : Network S P K :=
  { network with
    mailboxes :=
      network.mailboxes.map fun (other, mailbox) =>
        (other, if other = name then f mailbox else mailbox) }

/- Add a mailbox. -/
def add
    (mailbox : Mailbox S P K)
    (network : Network S P K) : Network S P K :=
  { network with
    mailboxes := network.mailboxes ++ [(mailbox.name, mailbox)] }

/- The endpoint of the mailbox of a name. -/
def endpoint?
    (network : Network S P K)
    (name : String) : Option Endpoint :=
  (network.mailboxes.findIdx? (·.1 = name)).map
    fun address => ⟨address, name⟩

/- Register a handler with a mailbox. -/
def register
    [DecidableEq K]
    (name : String)
    (handler : Handler S P K)
    (network : Network S P K) :
    Except DuplicateHandler (Network S P K) :=
  match network.mailbox? name with
  | none => .ok network
  | some mailbox =>
      (mailbox.register handler).map fun mailbox =>
        network.modify name fun _ => mailbox

/- It is soon the turn of a worker, if it is not already. -/
def awaken
    (name : String)
    (network : Network S P K) : Network S P K :=
  if network.ready.contains name then
    network
  else
    { network with ready := network.ready ++ [name] }

/- Tell the log something. -/
def notify
    (notice : Notice)
    (network : Network S P K) : Network S P K :=
  { network with notices := network.notices ++ [notice] }

/-
  Send a message to a mailbox, and tell whether it was
  accepted. A message that is not accepted is lost.
-/
def deliver
    (target : String)
    (envelope : Envelope P)
    (network : Network S P K) : Bool × Network S P K :=
  match (network.mailbox? target).bind (·.send? envelope) with
  | some mailbox =>
      (true, (network.modify target fun _ => mailbox).awaken target)
  | none => (false, network.notify (.deliveryFailed target))

/- Let something happen that a handler of a component does. -/
def perform
    (component : String)
    (network : Network S P K) :
    Effect P → Network S P K
| .note text category =>
    { network with
      notes :=
        network.notes ++ [⟨network.now, component, text, category⟩] }
| .emit target payload =>
    let (stamp, stamps) := network.stamps.next network.now
    ({ network with stamps := stamps }.deliver target
      (Envelope.event stamp payload)).2
| .pass target envelope => (network.deliver target envelope).2

------------------------------------------------------------
-- Turns
------------------------------------------------------------

/- A worker rests for an amount of time, if it does. -/
def repose
    (name : String)
    (rest : Option Nat)
    (network : Network S P K) : Network S P K :=
  match rest with
  | none => network
  | some ms =>
      { network with
        timers := (network.timers.once network.now ms name).2 }

/- Tell the log what there is to tell. -/
def tell
    (notice? : Option Notice)
    (network : Network S P K) : Network S P K :=
  { network with notices := network.notices ++ notice?.toList }

/- Go on with a step of a worker. -/
def follow
    (name : String)
    (step : Mailbox.Step S P K)
    (network : Network S P K) : Network S P K :=
  let network := network.modify name fun _ => step.mailbox
  let network := network.repose name step.rest
  let network := step.effects.foldl (perform name) network
  network.tell step.notice

section Turns

variable [DecidableEq K] [Payload P K]

/-
  Let the worker whose turn it is take a step. If it has to
  wait, it is the turn of the next one.
-/
def turn
    (name : String)
    (network : Network S P K) : Network S P K :=
  match (network.mailbox? name).bind (·.step?) with
  | some step => network.follow name step
  | none => { network with ready := network.ready.drop 1 }

/- Let workers take a number of steps, as long as one is ready. -/
def run :
    Nat → Network S P K → Network S P K
| 0, network => network
| n + 1, network =>
    match network.ready with
    | [] => network
    | name :: _ => run n (network.turn name)

/-
  How many steps may be taken at an instant. A message that
  goes from mailbox to mailbox without coming back to one as
  the same kind ends up somewhere before that.
-/
def patience
    (network : Network S P K) : Nat :=
  let waiting := network.mailboxes.flatMap fun (_, mailbox) => mailbox.queue
  16 * (waiting.length + 1) * (network.mailboxes.length + 1)

/- Let workers take steps until they all wait. -/
def settle
    (network : Network S P K) : Network S P K :=
  network.run network.patience

------------------------------------------------------------
-- Time
------------------------------------------------------------

/- A worker has rested long enough. -/
def rouse
    (network : Network S P K)
    (name : String) : Network S P K :=
  (network.modify name (·.wake)).awaken name

/- Let everything happen that is due at an instant. -/
def wake
    (now : Nat)
    (network : Network S P K) : Network S P K :=
  let (names, timers) := network.timers.fire now
  (names.foldl rouse
    { network with now := now, timers := timers }).settle

/- How a network runs through time. -/
def timed : Timed (Network S P K) where
  deadline? network := network.timers.deadline?
  wake := wake

/- Let time pass to a point, with a stop at every deadline. -/
def advanceTo
    (target : Nat)
    (network : Network S P K) : Network S P K :=
  { timed.advance target network.now network with now := target }

/- Let an amount of time pass, with a stop at every deadline. -/
def advance
    (ms : Nat)
    (network : Network S P K) : Network S P K :=
  network.advanceTo (network.now + ms)

/- Let an amount of time pass at once. -/
def jump
    (ms : Nat)
    (network : Network S P K) : Network S P K :=
  timed.jump (network.now + ms) network

------------------------------------------------------------
-- Operations
------------------------------------------------------------

/- Send messages to a mailbox, and tell which were accepted. -/
def send
    (target : String)
    (envelopes : List (Envelope P))
    (network : Network S P K) : List Bool × Network S P K :=
  let (accepted, network) :=
    envelopes.foldl
      (fun (accepted, network) envelope =>
        let (isAccepted, network) := network.deliver target envelope
        (accepted ++ [isAccepted], network))
      ([], network)
  (accepted, network.settle)

/- Hold a worker. -/
def hold
    (name : String)
    (network : Network S P K) : Network S P K :=
  { network with held := name :: network.held }

/- Do not hold a worker any more. -/
def release
    (name : String)
    (network : Network S P K) : Network S P K :=
  { network with held := network.held.filter (· ≠ name) }

/- Start the worker of a mailbox, and hold it. -/
def start
    (name : String)
    (network : Network S P K) : Network S P K :=
  (((network.modify name (·.start)).awaken name).hold name).settle

/- Whether a worker that is held has ended. -/
def isOver?
    (network : Network S P K)
    (name : String) : Option Bool :=
  if network.held.contains name then
    (network.mailbox? name).map (·.phase.isOver)
  else
    none

/- Give up a mailbox without waiting for its worker. -/
def drop
    (name : String)
    (network : Network S P K) : Network S P K :=
  ((network.modify name (·.drop)).awaken name).settle.release name

/- Let time pass until a worker does not rest any more. -/
def waitFor
    (name : String)
    (network : Network S P K) : Network S P K :=
  match network.timers.pending.find? (·.payload = name) with
  | none => network
  | some timer => network.advanceTo timer.deadline

/- The state that the worker of a mailbox has left behind. -/
def outcome
    (network : Network S P K)
    (name : String) : Except Shutdown S :=
  ((network.mailbox? name).bind (·.outcome?)).getD (.error ⟨name⟩)

/-
  Stop the worker of a mailbox and wait until it has ended.
  It hands back the state of the component.
-/
def stop
    (name : String)
    (network : Network S P K) :
    Except Shutdown S × Network S P K :=
  let network := (network.modify name (·.requestStop)).awaken name
  let network := (network.settle.waitFor name).release name
  (network.outcome name, network)

/- Take out the messages that a mailbox could not handle. -/
def takeUnhandled
    (name : String)
    (network : Network S P K) :
    List (Envelope P) × Network S P K :=
  match network.mailbox? name with
  | none => ([], network)
  | some mailbox =>
      let (taken, mailbox) := mailbox.takeUnhandled
      (taken, network.modify name fun _ => mailbox)

end Turns

end Network

end OrderDesk
