import Mathlib.Data.List.Basic
import OrderDesk.Timer.Board

/-
  This file defines what can be done with a board of timers
  in the course of time and, apart from any board, what that
  makes of the handle of a timer and when the timer is to
  fire.

  A timer is known here by when it was set, for how long,
  and what became of its handle since then. No timer looks
  at any other, and none looks at what is set on a board.

  Key definitions include:
    * `TimerAct`
    * `elapsed`
    * `TimerBoard.live`
    * `Custody`
    * `Custody.through`
    * `Custody.Spares`
    * `TimerRecord`
    * `TimerRecord.firings`
    * `timersSet`

  Key theorems include:
    * `Custody.through_append`
    * `Custody.through_of_ne_held`
    * `Custody.through_filter`
    * `timersSet_concat`
    * `TimerRecord.mem_deadlinesBy_of_recurs`
-/

namespace OrderDesk

------------------------------------------------------------
-- What Is Done With Timers
------------------------------------------------------------

/-
  What can be done with timers that are held by name: set
  them, use up their handles, and let time pass.
-/
inductive TimerAct (N : Type) where
  | once (name : N) (delay : Nat)
  | periodic (name : N) (interval : Nat)
  | cancel (name : N)
  | drop (name : N)
  | detach (name : N)
  | pass (ms : Nat)

namespace TimerAct

variable {N : Type}

/- How much time an act takes. -/
def duration :
    TimerAct N → Nat
| .pass ms => ms
| _ => 0

/- The name that an act is about. -/
def name? :
    TimerAct N → Option N
| .once name _ => some name
| .periodic name _ => some name
| .cancel name => some name
| .drop name => some name
| .detach name => some name
| .pass _ => none

/- The name under which an act sets a timer. -/
def setName? :
    TimerAct N → Option N
| .once name _ => some name
| .periodic name _ => some name
| _ => none

/- Time concerns every name, and other acts the one they are about. -/
def concerns [DecidableEq N]
    (name : N)
    (act : TimerAct N) : Bool :=
  match act.name? with
  | none => true
  | some other => decide (other = name)

end TimerAct

/- How much time passes in the course of acts. -/
def elapsed {N : Type} :
    List (TimerAct N) → Nat
| [] => 0
| act :: rest => act.duration + elapsed rest

theorem elapsed_append {N : Type}
    (first second : List (TimerAct N)) :
    elapsed (first ++ second) = elapsed first + elapsed second := by
  induction first with
  | nil => exact (Nat.zero_add _).symm
  | cons act rest ih =>
      rw [List.cons_append, elapsed, elapsed, ih, Nat.add_assoc]

namespace TimerBoard

variable {N : Type} [DecidableEq N]

/- Do one thing. -/
def act
    (board : TimerBoard N) :
    TimerAct N → TimerBoard N
| .once name delay => board.once name delay
| .periodic name interval => board.periodic name interval
| .cancel name => board.cancel name
| .drop name => board.release name
| .detach name => board.detach name
| .pass ms => board.advance ms

/- Do one thing after the other. -/
def live
    (board : TimerBoard N)
    (acts : List (TimerAct N)) : TimerBoard N :=
  acts.foldl act board

theorem live_concat
    (board : TimerBoard N)
    (acts : List (TimerAct N))
    (last : TimerAct N) :
    board.live (acts ++ [last]) = (board.live acts).act last :=
  List.foldl_append

/- When something fired under a name, oldest first. -/
def timesOf
    (name : N)
    (board : TimerBoard N) : List Nat :=
  (board.fired.filter (·.1 = name)).map (·.2)

end TimerBoard

------------------------------------------------------------
-- What Becomes Of A Handle
------------------------------------------------------------

/-
  What has become of the handle of a timer: somebody holds
  it, or its timer was detached, or it was let go of at some
  time, by cancelling or dropping it.
-/
inductive Custody where
  | held
  | detached
  | ended (time : Nat)
deriving DecidableEq

namespace Custody

variable {N : Type} [DecidableEq N]

/-
  What an act at a time makes of the handle that is held
  under a name. Whoever sets a new timer under the name drops
  the handle of the old one. There is nothing to be done with
  a handle that was used up.
-/
def after
    (name : N)
    (now : Nat)
    (act : TimerAct N) :
    Custody → Custody
| .held =>
    match act with
    | .once other _ => if other = name then .ended now else .held
    | .periodic other _ => if other = name then .ended now else .held
    | .cancel other => if other = name then .ended now else .held
    | .drop other => if other = name then .ended now else .held
    | .detach other => if other = name then .detached else .held
    | .pass _ => .held
| .detached => .detached
| .ended time => .ended time

/- What acts from a time on make of a handle, one after the other. -/
def through
    (name : N) :
    Nat → List (TimerAct N) → Custody → Custody
| _, [], custody => custody
| now, act :: rest, custody =>
    through name (now + act.duration) rest
      (custody.after name now act)

/- The timer has not been taken back before the given time. -/
def Spares
    (time : Nat) :
    Custody → Prop
| .held => True
| .detached => True
| .ended last => time ≤ last

instance
    (time : Nat) :
    (custody : Custody) → Decidable (custody.Spares time)
| .held => .isTrue trivial
| .detached => .isTrue trivial
| .ended last => inferInstanceAs (Decidable (time ≤ last))

/- The time up to which a timer runs that is looked at now. -/
def horizon
    (now : Nat) :
    Custody → Nat
| .held => now
| .detached => now
| .ended last => last

/- A handle that was used up stays so. -/
theorem after_of_ne_held
    {custody : Custody}
    (hUsed : custody ≠ .held)
    (name : N)
    (now : Nat)
    (act : TimerAct N) :
    custody.after name now act = custody := by
  cases custody with
  | held => exact absurd rfl hUsed
  | detached => rfl
  | ended time => rfl

/- Whatever is done later, a handle that was used up stays so. -/
theorem through_of_ne_held
    {custody : Custody}
    (hUsed : custody ≠ .held)
    (name : N)
    (now : Nat)
    (acts : List (TimerAct N)) :
    custody.through name now acts = custody := by
  induction acts generalizing now with
  | nil => rfl
  | cons act rest ih =>
      rw [through, after_of_ne_held hUsed, ih]

/- What is done under another name does nothing to a handle. -/
theorem after_of_not_concerns
    {name : N}
    {act : TimerAct N}
    (hOther : act.concerns name = false)
    (now : Nat)
    (custody : Custody) :
    custody.after name now act = custody := by
  by_cases hHeld : custody = .held
  · subst hHeld
    cases act with
    | pass ms => rfl
    | once other _ | periodic other _ | cancel other | drop other
    | detach other =>
        exact if_neg (of_decide_eq_false hOther)
  · exact after_of_ne_held hHeld name now act

/- An act under a name uses up the handle under that name alone. -/
theorem after_eq_held_iff
    (act : TimerAct N)
    {name : N}
    (hAct : act.name? = some name)
    (other : N)
    (now : Nat)
    (custody : Custody) :
    custody.after other now act = .held ↔
      custody = .held ∧ name ≠ other := by
  cases custody with
  | held =>
      cases act <;> cases hAct <;> by_cases hName : name = other <;>
        simp [after, hName]
  | detached => simp [after]
  | ended time => simp [after]

/- What happens to a handle happens in order. -/
theorem through_append
    (name : N)
    (now : Nat)
    (first second : List (TimerAct N))
    (custody : Custody) :
    custody.through name now (first ++ second) =
      (custody.through name now first).through name
        (now + elapsed first) second := by
  induction first generalizing now custody with
  | nil => rfl
  | cons act rest ih =>
      rw [List.cons_append, through, through, ih, elapsed,
        Nat.add_assoc]

theorem after_pass
    (name : N)
    (now ms : Nat)
    (custody : Custody) :
    custody.after name now (.pass ms) = custody := by
  cases custody <;> rfl

/- Whoever sets a timer drops the handle under its name. -/
theorem after_once
    (name other : N)
    (now delay : Nat)
    (custody : Custody) :
    custody.after other now (.once name delay) =
      custody.after other now (.drop name) := by
  cases custody <;> rfl

theorem after_periodic
    (name other : N)
    (now interval : Nat)
    (custody : Custody) :
    custody.after other now (.periodic name interval) =
      custody.after other now (.drop name) := by
  cases custody <;> rfl

theorem after_cancel
    (name other : N)
    (now : Nat)
    (custody : Custody) :
    custody.after other now (.cancel name) =
      custody.after other now (.drop name) := by
  cases custody <;> rfl

theorem duration_of_not_concerns
    {name : N}
    {act : TimerAct N}
    (hOther : act.concerns name = false) :
    act.duration = 0 := by
  cases act with
  | pass ms => cases hOther
  | once other _ | periodic other _ | cancel other | drop other
  | detach other => rfl

/- A handle is let go of when the act is done that does it. -/
theorem time_of_after
    {name : N}
    {now time : Nat}
    {act : TimerAct N}
    (hEnded : Custody.held.after name now act = .ended time) :
    time = now := by
  cases act with
  | pass ms => cases hEnded
  | detach other =>
      dsimp only [after] at hEnded
      split at hEnded <;> cases hEnded
  | once other _ | periodic other _ | cancel other | drop other =>
      dsimp only [after] at hEnded
      split at hEnded <;> cases hEnded
      rfl

/- A handle is let go of no later than at the last act. -/
theorem time_le_of_through
    {name : N}
    {now time : Nat}
    {acts : List (TimerAct N)}
    {custody : Custody}
    (hStart : ∀ last, custody = .ended last → last ≤ now)
    (hEnded : custody.through name now acts = .ended time) :
    time ≤ now + elapsed acts := by
  induction acts generalizing now custody with
  | nil => exact hStart time hEnded
  | cons act rest ih =>
      rw [elapsed, ← Nat.add_assoc]
      refine ih ?_ hEnded
      intro last hLast
      apply Nat.le_add_right_of_le
      by_cases hHeld : custody = .held
      · subst hHeld
        exact Nat.le_of_eq (time_of_after hLast)
      · rw [after_of_ne_held hHeld] at hLast
        exact hStart last hLast

/- What does not concern a name can be left out. -/
theorem through_filter
    (name : N)
    (now : Nat)
    (acts : List (TimerAct N))
    (custody : Custody) :
    custody.through name now (acts.filter (·.concerns name)) =
      custody.through name now acts := by
  induction acts generalizing now custody with
  | nil => rfl
  | cons act rest ih =>
      cases hConcerns : act.concerns name with
      | true =>
          rw [List.filter_cons_of_pos hConcerns, through, through, ih]
      | false =>
          rw [List.filter_cons_of_neg (by simp [hConcerns]), ih,
            through, after_of_not_concerns hConcerns,
            duration_of_not_concerns hConcerns, Nat.add_zero]

end Custody

------------------------------------------------------------
-- Timers By Themselves
------------------------------------------------------------

/-
  A timer that was set in the course of acts: under which
  name and when, its delay or its interval, and what became
  of its handle.
-/
structure TimerRecord (N : Type) where
  name : N
  since : Nat
  span : Nat
  recurs : Bool
  custody : Custody
deriving DecidableEq

namespace TimerRecord

variable {N : Type}

/-
  The deadlines of the timer up to some time: the end of its
  delay, or the end of each of its intervals.
-/
def deadlinesBy
    (time : Nat)
    (record : TimerRecord N) : List Nat :=
  if record.recurs then
    (List.range ((time - record.since) / record.span)).map fun k =>
      record.since + (k + 1) * record.span
  else if record.since + record.span ≤ time then
    [record.since + record.span]
  else
    []

/-
  When the timer is to fire until now: at each of its
  deadlines, as long as it is not taken back. Of a deadline
  and an act at the same time the deadline comes first.
-/
def firings
    (now : Nat)
    (record : TimerRecord N) : List Nat :=
  record.deadlinesBy (record.custody.horizon now)

/- What an act at a time makes of the timer. -/
def after [DecidableEq N]
    (now : Nat)
    (act : TimerAct N)
    (record : TimerRecord N) : TimerRecord N :=
  { record with
    custody := record.custody.after record.name now act }

end TimerRecord

/- The timer that an act at a time sets, with what is done later. -/
def TimerAct.record? {N : Type} [DecidableEq N]
    (now : Nat)
    (later : List (TimerAct N)) :
    TimerAct N → Option (TimerRecord N)
| .once name delay =>
    some ⟨name, now, delay, false,
      Custody.held.through name now later⟩
| .periodic name interval =>
    some ⟨name, now, interval, true,
      Custody.held.through name now later⟩
| _ => none

/- The timers that acts from a time on set, in order. -/
def timersSet {N : Type} [DecidableEq N] :
    Nat → List (TimerAct N) → List (TimerRecord N)
| _, [] => []
| now, act :: rest =>
    (act.record? now rest).toList ++
      timersSet (now + act.duration) rest

/-
  A last act may set a timer, and it may do something to the
  handles of those that were set before.
-/
theorem timersSet_concat {N : Type} [DecidableEq N]
    (now : Nat)
    (acts : List (TimerAct N))
    (last : TimerAct N) :
    timersSet now (acts ++ [last]) =
      (timersSet now acts).map
          (·.after (now + elapsed acts) last) ++
        (last.record? (now + elapsed acts) []).toList := by
  induction acts generalizing now with
  | nil => simp [timersSet, elapsed]
  | cons act rest ih =>
      have hRecord :
          act.record? now (rest ++ [last]) =
            (act.record? now rest).map
              (·.after (now + act.duration + elapsed rest)
                last) := by
        cases act <;>
          simp [TimerAct.record?, TimerRecord.after,
            Custody.through_append, Custody.through,
            TimerAct.duration]
      rw [List.cons_append, timersSet, timersSet, ih, hRecord,
        elapsed, List.map_append, List.append_assoc,
        Nat.add_assoc]
      cases act.record? now rest <;> rfl

namespace TimerRecord

variable {N : Type} {record : TimerRecord N}

theorem deadlinesBy_of_once
    (hOnce : record.recurs = false)
    (time : Nat) :
    record.deadlinesBy time =
      if record.since + record.span ≤ time then
        [record.since + record.span]
      else
        [] := by
  simp [deadlinesBy, hOnce]

theorem deadlinesBy_of_recurs
    (hRecurs : record.recurs = true)
    (time : Nat) :
    record.deadlinesBy time =
      (List.range ((time - record.since) / record.span)).map
        fun k => record.since + (k + 1) * record.span := by
  simp [deadlinesBy, hRecurs]

/- The deadlines of a periodic timer are on its grid. -/
theorem mem_deadlinesBy_of_recurs
    (hRecurs : record.recurs = true)
    {time deadline : Nat} :
    deadline ∈ record.deadlinesBy time ↔
      0 < record.span ∧
        (∃ k, 1 ≤ k ∧
          deadline = record.since + k * record.span) ∧
          deadline ≤ time := by
  rw [deadlinesBy_of_recurs hRecurs, List.mem_map]
  constructor
  · rintro ⟨k, hk, rfl⟩
    rw [List.mem_range] at hk
    have hPos : 0 < record.span :=
      (Nat.div_pos_iff.mp (Nat.zero_lt_of_lt hk)).1
    have hReached :
        (k + 1) * record.span ≤ time - record.since :=
      (Nat.le_div_iff_mul_le hPos).mp hk
    have hSome : 0 < (k + 1) * record.span :=
      Nat.mul_pos (Nat.succ_pos k) hPos
    exact
      ⟨hPos, ⟨k + 1, Nat.le_add_left 1 k, rfl⟩, by omega⟩
  · rintro ⟨hPos, ⟨k, hk, rfl⟩, hReached⟩
    refine ⟨k - 1, ?_, ?_⟩
    · rw [List.mem_range]
      have hSteps : k ≤ (time - record.since) / record.span := by
        rw [Nat.le_div_iff_mul_le hPos]
        omega
      omega
    · rw [Nat.sub_add_cancel hk]

/- The deadlines of a timer come in order, and none comes twice. -/
theorem pairwise_deadlinesBy
    (record : TimerRecord N)
    (time : Nat) :
    (record.deadlinesBy time).Pairwise (· < ·) := by
  unfold deadlinesBy
  split
  · rw [List.pairwise_map]
    refine List.pairwise_lt_range.imp_of_mem ?_
    intro first second _ hSecond hOrder
    rw [List.mem_range] at hSecond
    have hPos : 0 < record.span :=
      (Nat.div_pos_iff.mp (Nat.zero_lt_of_lt hSecond)).1
    exact
      Nat.add_lt_add_left
        (Nat.mul_lt_mul_of_pos_right
          (Nat.add_lt_add_right hOrder 1) hPos) _
  · split <;> simp

end TimerRecord

end OrderDesk
