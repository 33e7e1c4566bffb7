import OrderDesk.Endpoint
import OrderDesk.Throttle.Throttler
import OrderDesk.Timer.Timeline

/-
  This file defines a line: a throttler in time with what
  comes behind it. What comes behind it either takes
  everything, or is a target that may be closed, and then
  items that pass the throttler are lost.

  Key definitions include:
    * `Downstream`
    * `Line`
    * `Line.send`
    * `Line.start`
    * `Line.stop`
    * `Line.advance`
    * `Line.jump`
-/

namespace OrderDesk

/- What comes behind a throttler. -/
inductive Downstream where
  | consumer
  | target (name : String) (isOpen : Bool)
deriving DecidableEq

namespace Downstream

/- Why an item is lost, if it is. -/
def refusal? :
    Downstream → Option Notice
| consumer => none
| target _ true => none
| target name false => some (.deliveryFailed name)

/- Open or close a target. -/
def setOpen
    (isOpen : Bool) :
    Downstream → Downstream
| consumer => consumer
| target name _ => target name isOpen

end Downstream

/-
  A throttler in time: what has come out of it and when, and
  what the log was told, both oldest first.
-/
structure Line (α : Type) where
  now : Nat
  throttler : Throttler α
  timers : Timers Unit
  downstream : Downstream
  delivered : List (α × Nat)
  notices : List Notice

namespace Line

variable {α : Type}

/- A line at the start of time. -/
def new
    (throttler : Throttler α)
    (downstream : Downstream) : Line α :=
  ⟨0, throttler, Timers.empty, downstream, [], []⟩

/- The endpoint that feeds the throttler. -/
def endpoint
    (line : Line α) : Endpoint :=
  ⟨0, line.throttler.name⟩

/- Hand on items that have passed the throttler. -/
def forward
    (line : Line α)
    (items : List α) : Line α :=
  match line.downstream.refusal? with
  | none =>
      { line with
        delivered :=
          line.delivered ++ items.map fun item => (item, line.now) }
  | some notice =>
      { line with
        notices := line.notices ++ items.map fun _ => notice }

/- Send an item. A throttler accepts every item. -/
def send
    (item : α)
    (line : Line α) : Line α :=
  let (items, throttler) := line.throttler.send item
  { line with throttler := throttler }.forward items

/- Start the throttler. -/
def start
    (line : Line α) : Line α :=
  let (items, throttler, timers, notices) :=
    line.throttler.start line.now () line.timers
  let line :=
    { line with throttler := throttler, timers := timers }.forward items
  { line with notices := line.notices ++ notices }

/- Stop the throttler. -/
def stop
    (line : Line α) : Line α :=
  let (throttler, timers, notices) := line.throttler.stop line.timers
  { line with
    throttler := throttler
    timers := timers
    notices := line.notices ++ notices }

/- Open or close what comes behind the throttler. -/
def setOpen
    (isOpen : Bool)
    (line : Line α) : Line α :=
  { line with downstream := line.downstream.setOpen isOpen }

/- Begin the next window. -/
def roll
    (line : Line α) : Line α :=
  let (items, throttler) := line.throttler.roll
  { line with throttler := throttler }.forward items

/- Let the timer fire if it is due. -/
def wake
    (now : Nat)
    (line : Line α) : Line α :=
  let (rollovers, timers) := line.timers.fire now
  rollovers.foldl (fun line _ => line.roll)
    { line with now := now, timers := timers }

/- How a line runs through time. -/
def timed : Timed (Line α) where
  deadline? line := line.timers.deadline?
  wake := wake

/- Let an amount of time pass, with a stop at every deadline. -/
def advance
    (ms : Nat)
    (line : Line α) : Line α :=
  { timed.advance (line.now + ms) line.now line with
    now := line.now + ms }

/- Let an amount of time pass at once. -/
def jump
    (ms : Nat)
    (line : Line α) : Line α :=
  timed.jump (line.now + ms) line

end Line

end OrderDesk
