import OrderDesk.Timer.Handle
import OrderDesk.Timer.Timeline

/-
  This file defines a board of timers whose handles are held
  by name. Whoever lets go of a handle without detaching its
  timer takes the timer back, and so does whoever uses the
  name for another one.

  Key definitions include:
    * `TimerBoard`
    * `TimerBoard.once`
    * `TimerBoard.periodic`
    * `TimerBoard.release`
    * `TimerBoard.cancel`
    * `TimerBoard.detach`
    * `TimerBoard.advance`
    * `TimerBoard.jump`
-/

namespace OrderDesk

/-
  Timers that stand for names: the time, the timers that are
  set, the handle that is held under a name, and what fired
  when, oldest first.
-/
structure TimerBoard (N : Type) where
  now : Nat
  timers : Timers N
  held : List (N × TimerHandle)
  fired : List (N × Nat)
deriving DecidableEq

namespace TimerBoard

variable {N : Type} [DecidableEq N]

/- A board with no timers, at the start of time. -/
def empty : TimerBoard N :=
  ⟨0, Timers.empty, [], []⟩

/- Let all due timers fire. -/
def wake
    (now : Nat)
    (board : TimerBoard N) : TimerBoard N :=
  let (names, timers) := board.timers.fire now
  { board with
    now := now
    timers := timers
    fired := board.fired ++ names.map fun name => (name, now) }

/- Forget what is held under a name. -/
def forget
    (name : N)
    (board : TimerBoard N) : TimerBoard N :=
  { board with held := board.held.filter (·.1 ≠ name) }

/- Use up the handle that is held under a name, if there is one. -/
def spend
    (how : TimerHandle → Timers N → Timers N)
    (name : N)
    (board : TimerBoard N) : TimerBoard N :=
  match board.held.lookup name with
  | none => board
  | some handle =>
      { board.forget name with timers := how handle board.timers }

/- Drop the handle under a name. -/
def release
    (name : N)
    (board : TimerBoard N) : TimerBoard N :=
  board.spend TimerHandle.drop name

/- Cancel the timer under a name. -/
def cancel
    (name : N)
    (board : TimerBoard N) : TimerBoard N :=
  board.spend TimerHandle.cancel name

/- Cancelling a timer and dropping its handle come to the same. -/
theorem cancel_eq_release
    (name : N)
    (board : TimerBoard N) :
    board.cancel name = board.release name := by
  unfold cancel release spend
  simp only [TimerHandle.cancel_eq_drop]

/- Let the timer under a name run on without being held. -/
def detach
    (name : N)
    (board : TimerBoard N) : TimerBoard N :=
  board.spend TimerHandle.detach name

/- Hold the handle of a new timer under a name. -/
def hold
    (name : N)
    (set : Timers N → Nat × Timers N)
    (board : TimerBoard N) : TimerBoard N :=
  let (id, timers) := set board.timers
  let board := { board with timers := timers }.release name
  { board with held := (name, TimerHandle.new id) :: board.held }

theorem now_spend
    (how : TimerHandle → Timers N → Timers N)
    (name : N)
    (board : TimerBoard N) :
    (board.spend how name).now = board.now := by
  unfold spend
  split <;> rfl

theorem fired_spend
    (how : TimerHandle → Timers N → Timers N)
    (name : N)
    (board : TimerBoard N) :
    (board.spend how name).fired = board.fired := by
  unfold spend
  split <;> rfl

theorem now_hold
    (name : N)
    (set : Timers N → Nat × Timers N)
    (board : TimerBoard N) :
    (board.hold name set).now = board.now :=
  now_spend TimerHandle.drop name _

theorem fired_hold
    (name : N)
    (set : Timers N → Nat × Timers N)
    (board : TimerBoard N) :
    (board.hold name set).fired = board.fired :=
  fired_spend TimerHandle.drop name _

/- Set a timer that fires once. It fires now if it has no delay. -/
def once
    (name : N)
    (delay : Nat)
    (board : TimerBoard N) : TimerBoard N :=
  (board.hold name (Timers.once board.now delay name)).wake board.now

/- Set a timer that fires after each interval. -/
def periodic
    (name : N)
    (interval : Nat)
    (board : TimerBoard N) : TimerBoard N :=
  board.hold name (Timers.periodic board.now interval name)

theorem now_periodic
    (name : N)
    (interval : Nat)
    (board : TimerBoard N) :
    (board.periodic name interval).now = board.now :=
  now_hold name _ board

/- How a board runs through time. -/
def timed : Timed (TimerBoard N) where
  deadline? board := board.timers.deadline?
  wake := wake

/- Let an amount of time pass, with a stop at every deadline. -/
def advance
    (ms : Nat)
    (board : TimerBoard N) : TimerBoard N :=
  { timed.advance (board.now + ms) board.now board with
    now := board.now + ms }

/- Let an amount of time pass at once. -/
def jump
    (ms : Nat)
    (board : TimerBoard N) : TimerBoard N :=
  timed.jump (board.now + ms) board

end TimerBoard

end OrderDesk
