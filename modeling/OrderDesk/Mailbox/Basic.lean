import OrderDesk.Mailbox.Registry
import OrderDesk.Notice

/-
  This file defines mailboxes. A mailbox owns the state of a
  component, its handlers, and a queue of messages, and a
  worker that takes the messages one at a time, in the order
  in which they were sent.

  Messages are accepted from the beginning, also before the
  worker is started, and until the worker has ended. A
  worker that is told to stop lets the handler that is at
  work come to its end and takes no further message.

  A fault of a handler is told to the log and is no harm to
  the worker. The sink for unhandled messages is not
  guarded: if it panics, the worker dies.

  Key definitions include:
    * `Sink`
    * `Phase`
    * `Mailbox`
    * `Mailbox.send?`
    * `Mailbox.outcome?`
    * `Mailbox.step?`
-/

namespace OrderDesk

------------------------------------------------------------
-- Mailboxes
------------------------------------------------------------

/- What a sink does with a message. -/
structure Disposal (P : Type) where
  effects : List (Effect P)
  panics : Bool

/-
  Where unhandled messages go: into a list, or to somebody
  who disposes of them.
-/
inductive Sink (P : Type) where
  | collect
  | custom (dispose : Envelope P → Disposal P)

/-
  What a worker is doing. While it rests in a handler, the
  kind of the message that is handled and what is left of
  the handler are known. A worker has died if it ended
  without being told to, and a mailbox is dropped if it was
  given up before it had a worker.
-/
inductive Phase (P K : Type) where
  | created
  | starting
  | awake
  | resting (kind : K) (remainder : Remainder P)
  | rested (kind : K) (remainder : Remainder P)
  | stopped
  | died
  | dropped
deriving DecidableEq

namespace Phase

variable {P K : Type}

/- Messages are accepted. -/
def accepts :
    Phase P K → Bool
| stopped => false
| died => false
| dropped => false
| _ => true

/- The worker has ended. -/
def isOver :
    Phase P K → Bool
| stopped => true
| died => true
| _ => false

end Phase

/- There is no state to hand back, since the worker is gone. -/
structure Shutdown where
  component : String
deriving DecidableEq

namespace Shutdown

/- What has been shut down. -/
def subject
    (shutdown : Shutdown) : String :=
  "mailbox " ++ shutdown.component

end Shutdown

/-
  A mailbox: its handlers, the sink for messages that none
  of them handles and what it has collected, the state of
  the component, the queue, what the worker is doing, and
  whether it is told to stop.
-/
structure Mailbox (S P K : Type) where
  registry : Registry S P K
  sink : Sink P
  unhandled : List (Envelope P)
  state : S
  queue : List (Envelope P)
  phase : Phase P K
  stopRequested : Bool

namespace Mailbox

variable {S P K : Type}

/- A new mailbox. -/
def new
    (name : String)
    (state : S) : Mailbox S P K where
  registry := Registry.empty name
  sink := .collect
  unhandled := []
  state := state
  queue := []
  phase := .created
  stopRequested := false

/- The name of a mailbox. -/
def name
    (mailbox : Mailbox S P K) : String :=
  mailbox.registry.component

------------------------------------------------------------
-- Before The Start
------------------------------------------------------------

/- Register a handler. -/
def register
    [DecidableEq K]
    (handler : Handler S P K)
    (mailbox : Mailbox S P K) :
    Except DuplicateHandler (Mailbox S P K) :=
  (mailbox.registry.insert handler).map fun registry =>
    { mailbox with registry := registry }

/- Let somebody else dispose of unhandled messages. -/
def replaceSink
    (dispose : Envelope P → Disposal P)
    (mailbox : Mailbox S P K) : Mailbox S P K :=
  { mailbox with sink := .custom dispose }

/- Change the state of the component. -/
def modifyState
    (f : S → S)
    (mailbox : Mailbox S P K) : Mailbox S P K :=
  { mailbox with state := f mailbox.state }

/- Start the worker. -/
def start
    (mailbox : Mailbox S P K) : Mailbox S P K :=
  match mailbox.phase with
  | .created => { mailbox with phase := .starting }
  | _ => mailbox

------------------------------------------------------------
-- At Any Time
------------------------------------------------------------

/- Send a message. It comes to nothing if it is not accepted. -/
def send?
    (envelope : Envelope P)
    (mailbox : Mailbox S P K) : Option (Mailbox S P K) :=
  if mailbox.phase.accepts then
    some { mailbox with queue := mailbox.queue ++ [envelope] }
  else
    none

/- Tell the worker to stop. -/
def requestStop
    (mailbox : Mailbox S P K) : Mailbox S P K :=
  { mailbox with stopRequested := true }

/-
  Give up a mailbox. Without a worker it is gone with its
  queue, and otherwise the worker is told to stop.
-/
def drop
    (mailbox : Mailbox S P K) : Mailbox S P K :=
  match mailbox.phase with
  | .created => { mailbox with queue := [], phase := .dropped }
  | _ => mailbox.requestStop

/- Take out the unhandled messages. -/
def takeUnhandled
    (mailbox : Mailbox S P K) :
    List (Envelope P) × Mailbox S P K :=
  (mailbox.unhandled, { mailbox with unhandled := [] })

/- What is left of a worker that has ended. -/
def outcome?
    (mailbox : Mailbox S P K) : Option (Except Shutdown S) :=
  match mailbox.phase with
  | .stopped => some (.ok mailbox.state)
  | .died => some (.error ⟨mailbox.name⟩)
  | _ => none

/- The rest of the handler at work is over. -/
def wake
    (mailbox : Mailbox S P K) : Mailbox S P K :=
  match mailbox.phase with
  | .resting kind remainder =>
      { mailbox with phase := .rested kind remainder }
  | _ => mailbox

------------------------------------------------------------
-- The Worker
------------------------------------------------------------

/-
  A step of a worker: the mailbox afterwards, what happens
  around it, for how long the worker rests, if it does, and
  what the log is told in the end.
-/
structure Step (S P K : Type) where
  mailbox : Mailbox S P K
  effects : List (Effect P)
  rest : Option Nat
  notice : Option Notice

section Worker

variable [Payload P K]

/- What the log is told about the end of a handler. -/
def notice?
    (mailbox : Mailbox S P K)
    (kind : K)
    (ending : Ending) : Option Notice :=
  ending.fault?.map
    (Notice.handlerFault mailbox.name (Payload.kindName (P := P) kind))

/- Let the handler at work come to its end. -/
def complete
    (mailbox : Mailbox S P K)
    (kind : K)
    (remainder : Remainder P) : Step S P K :=
  ⟨{ mailbox with phase := .awake }, remainder.effects, none,
    mailbox.notice? kind remainder.ending⟩

/- Go on with what comes of a message. -/
def follow
    (mailbox : Mailbox S P K)
    (kind : K)
    (reaction : Reaction S P) : Step S P K :=
  let mailbox := { mailbox with state := reaction.state }
  if reaction.rest = 0 then
    let step := mailbox.complete kind reaction.remainder
    { step with effects := reaction.effects ++ step.effects }
  else
    ⟨{ mailbox with phase := .resting kind reaction.remainder },
      reaction.effects, some reaction.rest, none⟩

/- Let the sink have a message that nobody handles. -/
def discard
    (mailbox : Mailbox S P K)
    (envelope : Envelope P) : Step S P K :=
  match mailbox.sink with
  | .collect =>
      ⟨{ mailbox with unhandled := mailbox.unhandled ++ [envelope] },
        [], none, none⟩
  | .custom dispose =>
      let disposal := dispose envelope
      let mailbox :=
        if disposal.panics then
          { mailbox with queue := [], phase := .died }
        else
          mailbox
      ⟨mailbox, disposal.effects, none, none⟩

/- Let the worker take a message. -/
def take
    [DecidableEq K]
    (mailbox : Mailbox S P K)
    (envelope : Envelope P) : Step S P K :=
  match mailbox.registry.dispatch mailbox.state envelope with
  | .ok reaction =>
      mailbox.follow (Payload.kind envelope.payload) reaction
  | .error envelope => mailbox.discard envelope

/- Begin to work. -/
def commence
    (mailbox : Mailbox S P K) : Step S P K :=
  ⟨{ mailbox with phase := .awake }, [], none,
    some (.mailboxStarted mailbox.name)⟩

/- Stop working, and let go of all that still waits. -/
def halt
    (mailbox : Mailbox S P K) : Step S P K :=
  ⟨{ mailbox with queue := [], phase := .stopped }, [], none,
    some (.mailboxStopped mailbox.name mailbox.queue.length)⟩

/-
  The next step of the worker, unless it waits for a message
  or for time to pass, or has ended.
-/
def step?
    [DecidableEq K]
    (mailbox : Mailbox S P K) : Option (Step S P K) :=
  match mailbox.phase with
  | .starting => some mailbox.commence
  | .awake =>
      if mailbox.stopRequested then
        some mailbox.halt
      else
        match mailbox.queue with
        | [] => none
        | envelope :: queue =>
            some ({ mailbox with queue := queue }.take envelope)
  | .rested kind remainder => some (mailbox.complete kind remainder)
  | _ => none

end Worker

end Mailbox

end OrderDesk
