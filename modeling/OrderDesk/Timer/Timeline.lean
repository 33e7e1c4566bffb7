/-
  This file defines how a system runs through time. Nothing
  happens between deadlines, so time can go from one to the
  next, or over several at once when the system was stalled.

  Key definitions include:
    * `Timed`
    * `Timed.advance`
    * `Timed.jump`

  Key theorems include:
    * `Timed.advance_induction`
-/

namespace OrderDesk

/-
  A system in time: its next deadline, and all that happens
  at an instant.
-/
structure Timed (S : Type) where
  deadline? : S → Option Nat
  wake : Nat → S → S

namespace Timed

variable {S : Type}

/-
  Let time pass from `now` to `target`, with a stop at every
  deadline.
-/
def advance
    (system : Timed S)
    (target now : Nat)
    (s : S) : S :=
  match system.deadline? s with
  | none => s
  | some d =>
      if now < d ∧ d ≤ target then
        system.advance target d (system.wake d s)
      else
        s
termination_by target - now

theorem advance_of_le
    {target now : Nat}
    (hPast : target ≤ now)
    (system : Timed S)
    (s : S) :
    system.advance target now s = s := by
  unfold advance
  split
  · rfl
  · exact if_neg (by omega)

/-
  What holds of a system that has come to some time, and is
  preserved by going on to the next deadline, holds at the
  last stop before `target`. Nothing is due from there on.
-/
theorem advance_induction
    {system : Timed S}
    {target now : Nat}
    {s : S}
    (Before : Nat → S → Prop)
    (After : S → Prop)
    (hWake :
      ∀ now s d, Before now s → now < d →
        system.deadline? s = some d → Before d (system.wake d s))
    (hRest :
      ∀ now s, Before now s → now ≤ target →
        (∀ d ∈ system.deadline? s, now < d → target < d) → After s)
    (hLater : now ≤ target)
    (hStart : Before now s) :
    After (system.advance target now s) := by
  fun_induction advance system target now s with
  | case1 now s hNone =>
      refine hRest now s hStart hLater fun d hSome => ?_
      rw [hNone] at hSome
      cases hSome
  | case2 now s d hSome hDue ih =>
      exact ih hDue.2 (hWake now s d hStart hDue.1 hSome)
  | case3 now s d hSome hNotDue =>
      refine hRest now s hStart hLater fun other hOther hAhead => ?_
      cases hSome.symm.trans hOther
      exact Nat.lt_of_not_le fun hDue => hNotDue ⟨hAhead, hDue⟩

/- Let time pass to `target` without a stop. -/
def jump
    (system : Timed S)
    (target : Nat)
    (s : S) : S :=
  system.wake target s

end Timed

end OrderDesk
