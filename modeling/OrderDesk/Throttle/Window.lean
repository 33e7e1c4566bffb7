/-
  This file defines windows: how many items may pass until
  the next rollover, and the items that have to wait.

  An item passes at once if the window is open, has room and
  nothing waits. Waiting items pass in the order in which
  they came, and nothing is ever lost.

  Key definitions include:
    * `Window`
    * `Window.send`
    * `Window.drain`
    * `Window.roll`
    * `Window.start`
    * `Window.stop`

  Key theorems include:
    * `Window.send_fst_append_buffer`
    * `Window.drain_fst_append_buffer`
-/

namespace OrderDesk

/-
  A window: how many items may pass in it, how many have,
  which are waiting, and whether any may pass at all.
-/
structure Window (α : Type) where
  limit : Nat
  sent : Nat
  buffer : List α
  running : Bool
  limit_pos : 0 < limit
deriving DecidableEq

namespace Window

variable {α : Type}

/- A window that has not been started. -/
def new
    (limit : Nat)
    (limit_pos : 0 < limit) : Window α :=
  ⟨limit, 0, [], false, limit_pos⟩

/- How many items may still pass. -/
def room
    (w : Window α) : Nat :=
  if w.running then w.limit - w.sent else 0

/- An item that comes now may pass at once. -/
def admits
    (w : Window α) : Bool :=
  w.buffer.isEmpty && decide (0 < w.room)

/- Let an item pass, or let it wait. -/
def send
    (item : α)
    (w : Window α) : List α × Window α :=
  if w.admits then
    ([item], { w with sent := w.sent + 1 })
  else
    ([], { w with buffer := w.buffer ++ [item] })

/- Let waiting items pass as long as there is room. -/
def drain
    (w : Window α) : List α × Window α :=
  let released := w.buffer.take w.room
  (released,
    { w with
      sent := w.sent + released.length
      buffer := w.buffer.drop w.room })

/- Begin the next window. -/
def roll
    (w : Window α) : List α × Window α :=
  { w with sent := 0 }.drain

/- Let items pass from now on. The count of the window goes on. -/
def start
    (w : Window α) : List α × Window α :=
  { w with running := true }.drain

/- Let all items wait from now on. -/
def stop
    (w : Window α) : Window α :=
  { w with running := false }

------------------------------------------------------------
-- First In, First Out
------------------------------------------------------------

/- An item comes after all that wait. -/
theorem send_fst_append_buffer
    (item : α)
    (w : Window α) :
    (w.send item).1 ++ (w.send item).2.buffer =
      w.buffer ++ [item] := by
  unfold send
  by_cases hAdmits : w.admits
  · have hEmpty : w.buffer = [] := by
      unfold admits at hAdmits
      simp only [Bool.and_eq_true, List.isEmpty_iff] at hAdmits
      exact hAdmits.1
    simp [hAdmits, hEmpty]
  · simp [hAdmits]

/- What passes was at the front of what waited. -/
theorem drain_fst_append_buffer
    (w : Window α) :
    w.drain.1 ++ w.drain.2.buffer = w.buffer :=
  List.take_append_drop _ _

theorem roll_fst_append_buffer
    (w : Window α) :
    w.roll.1 ++ w.roll.2.buffer = w.buffer :=
  drain_fst_append_buffer _

theorem start_fst_append_buffer
    (w : Window α) :
    w.start.1 ++ w.start.2.buffer = w.buffer :=
  drain_fst_append_buffer _

end Window

end OrderDesk
