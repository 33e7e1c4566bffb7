import OrderDesk.Timer.Basic

/-
  This file defines the handles of timers. A handle holds the
  number by which its timer is taken back, until that is
  taken out of it, and every handle goes out of use in the
  end: after it was cancelled or detached as well as when it
  is just dropped. If the number is still there by then, the
  timer is taken back.

  Key definitions include:
    * `TimerHandle`
    * `TimerHandle.drop`
    * `TimerHandle.cancel`
    * `TimerHandle.detach`
-/

namespace OrderDesk

/- What is held of a timer: its number, if it is still there. -/
structure TimerHandle where
  abort : Option Nat
deriving DecidableEq

namespace TimerHandle

variable {P : Type}

/- The handle of the timer with a number. -/
def new
    (id : Nat) : TimerHandle :=
  ⟨some id⟩

/- Take the number out of a handle. -/
def take
    (handle : TimerHandle) : Option Nat × TimerHandle :=
  (handle.abort, { handle with abort := none })

/- Take back the timer with the number, if there is a number. -/
def withdraw
    (abort : Option Nat)
    (timers : Timers P) : Timers P :=
  match abort with
  | none => timers
  | some id => timers.cancel id

/- The handle goes out of use. -/
def drop
    (handle : TimerHandle)
    (timers : Timers P) : Timers P :=
  withdraw handle.take.1 timers

/- Take back the timer. The handle goes out of use with that. -/
def cancel
    (handle : TimerHandle)
    (timers : Timers P) : Timers P :=
  let (abort, used) := handle.take
  used.drop (withdraw abort timers)

/-
  Let the timer run on without a handle, which goes out of
  use with that.
-/
def detach
    (handle : TimerHandle)
    (timers : Timers P) : Timers P :=
  drop { handle with abort := none } timers

/- A cancelled handle does what a dropped one does, and no more. -/
theorem cancel_eq_drop
    (handle : TimerHandle)
    (timers : Timers P) :
    handle.cancel timers = handle.drop timers :=
  rfl

theorem detach_eq
    (handle : TimerHandle)
    (timers : Timers P) :
    handle.detach timers = timers :=
  rfl

/- A handle that nobody used takes back its timer. -/
theorem drop_new
    (id : Nat)
    (timers : Timers P) :
    (new id).drop timers = timers.cancel id :=
  rfl

end TimerHandle

end OrderDesk
