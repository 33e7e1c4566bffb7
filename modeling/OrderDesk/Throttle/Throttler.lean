import OrderDesk.Notice
import OrderDesk.Throttle.Window
import OrderDesk.Timer.Basic
import OrderDesk.Validation

/-
  This file defines throttlers: windows that roll over when
  a periodic timer fires. While a throttler is stopped there
  is no timer and everything waits.

  Key definitions include:
    * `Throttler`
    * `Throttler.new`
    * `Throttler.send`
    * `Throttler.start`
    * `Throttler.stop`
    * `Throttler.roll`

  Key theorems include:
    * `Throttler.eq_of_new`
-/

namespace OrderDesk

/-
  A throttler: its name, the length of its windows, the
  present window, and its timer if it has been started.
-/
structure Throttler (α : Type) where
  name : String
  intervalMs : Nat
  window : Window α
  timer : Option Nat
  intervalMs_pos : 0 < intervalMs

namespace Throttler

variable {α P : Type}

/- A throttler that has not been started. -/
def new
    (name : String)
    (intervalMs limit : Nat) :
    Except ValidationError (Throttler α) :=
  if hInterval : intervalMs = 0 then
    .error (.throttlerInterval name)
  else if hLimit : limit = 0 then
    .error (.throttlerLimit name)
  else
    .ok
      { name := name
        intervalMs := intervalMs
        window := Window.new limit (Nat.pos_of_ne_zero hLimit)
        timer := none
        intervalMs_pos := Nat.pos_of_ne_zero hInterval }

/- How many items wait. -/
def buffered
    (t : Throttler α) : Nat :=
  t.window.buffer.length

/- Items may pass. -/
def isRunning
    (t : Throttler α) : Bool :=
  t.window.running

/- What an operation lets pass, and the throttler after it. -/
def put
    (t : Throttler α)
    (result : List α × Window α) : List α × Throttler α :=
  (result.1, { t with window := result.2 })

/- Let an item pass, or let it wait. -/
def send
    (item : α)
    (t : Throttler α) : List α × Throttler α :=
  t.put (t.window.send item)

/- Begin the next window. -/
def roll
    (t : Throttler α) : List α × Throttler α :=
  t.put t.window.roll

/-
  Start a throttler whose timer stands for `rollover`. One
  that has been started already is left alone.
-/
def start
    (now : Nat)
    (rollover : P)
    (timers : Timers P)
    (t : Throttler α) :
    List α × Throttler α × Timers P × List Notice :=
  match t.timer with
  | some _ => ([], t, timers, [])
  | none =>
      let (items, t) := t.put t.window.start
      let (id, timers) := timers.periodic now t.intervalMs rollover
      (items, { t with timer := some id }, timers,
        [.throttlerStarted t.name t.intervalMs items.length])

/- Stop a throttler and take back its timer. -/
def stop
    (timers : Timers P)
    (t : Throttler α) :
    Throttler α × Timers P × List Notice :=
  ({ t with window := t.window.stop, timer := none },
    (match t.timer with
     | some id => timers.cancel id
     | none => timers),
    [.throttlerStopped t.name t.buffered])

/- A throttler that could be made has not been started. -/
theorem eq_of_new
    {name : String}
    {intervalMs limit : Nat}
    {throttler : Throttler α}
    (hNew : new name intervalMs limit = .ok throttler) :
    ∃ intervalMs_pos limit_pos,
      throttler =
        { name := name
          intervalMs := intervalMs
          window := Window.new limit limit_pos
          timer := none
          intervalMs_pos := intervalMs_pos } := by
  unfold new at hNew
  split at hNew
  · cases hNew
  · rename_i hInterval
    split at hNew
    · cases hNew
    · rename_i hLimit
      cases hNew
      exact
        ⟨Nat.pos_of_ne_zero hInterval,
          Nat.pos_of_ne_zero hLimit, rfl⟩

end Throttler

end OrderDesk
