/-
  This file defines timers: what is to happen once after a
  delay, or again and again after each interval.

  Timers are kept in the order in which they were set, and a
  periodic timer is set anew whenever it fires. Of the
  timers that are due the earliest deadline comes first, and
  of equal deadlines the timer that was set first.

  A periodic timer keeps its grid as long as it fires at
  most `graceMs` late. A timer that fires later than that
  starts a new grid, and what it missed is not made up for.

  Key definitions include:
    * `Timer`
    * `Timer.firings`
    * `Timer.renewed?`
    * `Timers`
    * `Timers.once`
    * `Timers.periodic`
    * `Timers.cancel`
    * `Timers.due`
    * `Timers.fire`
-/

namespace OrderDesk

------------------------------------------------------------
-- Single Timers
------------------------------------------------------------

/-
  A timer: the time in milliseconds at which it fires, its
  interval if it is periodic, and what it stands for.
-/
structure Timer (P : Type) where
  id : Nat
  deadline : Nat
  interval : Option Nat
  payload : P
deriving DecidableEq

/- How late a periodic timer may fire without losing its grid. -/
def graceMs : Nat :=
  5

namespace Timer

variable {P : Type}

/- The timer fires at the given time, if it is looked at then. -/
def isDue
    (now : Nat)
    (timer : Timer P) : Bool :=
  decide (timer.deadline ≤ now)

/- The timer fires too late to keep its grid. -/
def isOverdue
    (now : Nat)
    (timer : Timer P) : Bool :=
  decide (timer.deadline + graceMs < now)

/-
  How often a due timer fires at once: on a grid that it
  keeps, for every deadline that has passed.
-/
def firings
    (now : Nat)
    (timer : Timer P) : Nat :=
  match timer.interval with
  | none => 1
  | some interval =>
      if timer.isOverdue now then
        1
      else
        (now - timer.deadline) / interval + 1

/- The timer as it is set anew after it has fired. -/
def renewed?
    (now : Nat)
    (timer : Timer P) : Option (Timer P) :=
  timer.interval.map fun interval =>
    if timer.isOverdue now then
      { timer with deadline := now + interval }
    else
      { timer with
        deadline := timer.deadline + timer.firings now * interval }

end Timer

------------------------------------------------------------
-- Sets Of Timers
------------------------------------------------------------

/-
  The timers that are set, in the order in which they were
  set, and the number that the next one gets.
-/
structure Timers (P : Type) where
  pending : List (Timer P)
  next : Nat
deriving DecidableEq

namespace Timers

variable {P : Type}

/- No timer is set. -/
def empty : Timers P :=
  ⟨[], 0⟩

/- Set a timer that fires once, and tell its number. -/
def once
    (now delay : Nat)
    (payload : P)
    (timers : Timers P) : Nat × Timers P :=
  (timers.next,
    ⟨timers.pending ++ [⟨timers.next, now + delay, none, payload⟩],
      timers.next + 1⟩)

/-
  Set a timer that fires first after one interval, and tell
  its number. With no interval it never fires.
-/
def periodic
    (now interval : Nat)
    (payload : P)
    (timers : Timers P) : Nat × Timers P :=
  let timer : Timer P :=
    ⟨timers.next, now + interval, some interval, payload⟩
  (timers.next,
    ⟨timers.pending ++ (if interval = 0 then [] else [timer]),
      timers.next + 1⟩)

/- Take back a timer. One that is not set any more is no matter. -/
def cancel
    (id : Nat)
    (timers : Timers P) : Timers P :=
  { timers with pending := timers.pending.filter (·.id ≠ id) }

/- Put a timer into a list that is in the order of firing. -/
def insert
    (timer : Timer P) :
    List (Timer P) → List (Timer P)
| [] => [timer]
| other :: rest =>
    if timer.deadline ≤ other.deadline then
      timer :: other :: rest
    else
      other :: insert timer rest

/- The timers that are due, in the order of firing. -/
def due
    (now : Nat)
    (timers : Timers P) : List (Timer P) :=
  (timers.pending.filter (·.isDue now)).foldr insert []

/- The earliest deadline. -/
def deadline?
    (timers : Timers P) : Option Nat :=
  (timers.pending.map (·.deadline)).min?

/-
  Let all due timers fire: what they stand for, in the order
  of firing, and the timers that are set afterwards.
-/
def fire
    (now : Nat)
    (timers : Timers P) : List P × Timers P :=
  let due := timers.due now
  (due.flatMap fun timer =>
      List.replicate (timer.firings now) timer.payload,
    { timers with
      pending :=
        timers.pending.filter (fun timer => ¬ timer.isDue now) ++
          due.filterMap (·.renewed? now) })

end Timers

end OrderDesk
