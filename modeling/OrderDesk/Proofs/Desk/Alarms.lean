import Mathlib.Data.List.Perm.Subperm
import OrderDesk.Desk
import OrderDesk.Proofs.Timer.Firing

/-
  This file proves that the timers of a desk neither lose
  nor double a fill: when timers fire, the fills that are
  due and the fills that still wait are those that were set.

  Key definitions include:
    * `Alarm.fill?`
    * `fillsOf`
    * `OneShot`

  Key theorems include:
    * `fills_fire_perm`
    * `oneShot_fire`
-/

namespace OrderDesk

/- The fill that an alarm stands for. -/
def Alarm.fill? :
    Alarm → Option PendingFill
| .rollover => none
| .fill pending => some pending

/- The fills among what timers stand for. -/
def fillsOf
    (timers : List (Timer Alarm)) : List PendingFill :=
  timers.filterMap fun timer => timer.payload.fill?

/- No fill is repeated. -/
def OneShot
    (timers : List (Timer Alarm)) : Prop :=
  ∀ timer ∈ timers,
    ∀ fill,
      timer.payload = .fill fill → timer.interval = none

variable {due timers : List (Timer Alarm)} {now : Nat}

theorem fills_of_due
    (hOnce : OneShot due) :
    (due.flatMap fun timer =>
        List.replicate (timer.firings now)
          timer.payload).filterMap Alarm.fill? =
      fillsOf due := by
  induction due with
  | nil => rfl
  | cons timer rest ih =>
      have hRest := ih fun other hOther =>
        hOnce other (List.mem_cons_of_mem _ hOther)
      rw [List.flatMap_cons, List.filterMap_append, hRest]
      unfold fillsOf
      cases hPayload : timer.payload with
      | rollover => simp [hPayload, Alarm.fill?]
      | fill pending =>
          have hInterval :=
            hOnce timer List.mem_cons_self pending hPayload
          have hFirings : timer.firings now = 1 := by
            unfold Timer.firings
            rw [hInterval]
          simp [hPayload, hFirings, Alarm.fill?]

theorem fillsOf_renewed
    (hOnce : OneShot due) :
    fillsOf (due.filterMap (·.renewed? now)) = [] := by
  unfold fillsOf
  rw [List.filterMap_eq_nil_iff]
  intro next hNext
  rcases List.mem_filterMap.mp hNext with ⟨timer, hTimer, hRenewed⟩
  rcases renewed_eq_some hRenewed with
    ⟨hPayload, _, hInterval⟩
  cases hFill : next.payload with
  | rollover => rfl
  | fill pending =>
      rw [hPayload] at hFill
      exact absurd (hOnce timer hTimer pending hFill) hInterval

/- Of the fills that are due and not due, none is lost or doubled. -/
theorem fills_fire_perm
    (timers : Timers Alarm)
    (now : Nat)
    (hOnce : OneShot timers.pending) :
    ((timers.fire now).1.filterMap Alarm.fill? ++
        fillsOf (timers.fire now).2.pending).Perm
      (fillsOf timers.pending) := by
  have hPerm := due_perm now timers
  have hDue : OneShot (timers.due now) := by
    intro timer hTimer
    exact
      hOnce timer
        (List.mem_of_mem_filter (hPerm.mem_iff.mp hTimer))
  unfold Timers.fire
  dsimp only
  rw [fills_of_due hDue]
  have hRest :
      fillsOf
          (timers.pending.filter (fun timer => ¬ timer.isDue now) ++
            (timers.due now).filterMap (·.renewed? now)) =
        fillsOf
          (timers.pending.filter fun timer => !timer.isDue now) := by
    have hRenewed := @fillsOf_renewed _ now hDue
    unfold fillsOf at hRenewed ⊢
    rw [List.filterMap_append, hRenewed, List.append_nil]
    simp
  rw [hRest]
  have hFills :
      (fillsOf (timers.due now)).Perm
        (fillsOf (timers.pending.filter (·.isDue now))) :=
    hPerm.filterMap _
  refine (hFills.append_right _).trans ?_
  unfold fillsOf
  rw [← List.filterMap_append]
  exact (List.filter_append_perm _ _).filterMap _

/- What fires is not set anew as a fill. -/
theorem oneShot_fire
    (timers : Timers Alarm)
    (now : Nat)
    (hOnce : OneShot timers.pending) :
    OneShot (timers.fire now).2.pending := by
  intro timer hTimer fill hFill
  rcases List.mem_append.mp hTimer with hKept | hRenewed
  · exact hOnce timer (List.mem_of_mem_filter hKept) fill hFill
  · rcases List.mem_filterMap.mp hRenewed with
      ⟨before, hBefore, hNext⟩
    have hMem :=
      List.mem_of_mem_filter
        ((due_perm now timers).mem_iff.mp hBefore)
    rcases renewed_eq_some hNext with ⟨hPayload, hInterval, _⟩
    rw [hInterval]
    exact hOnce before hMem fill (hPayload.symm.trans hFill)

theorem fillsOf_periodic
    (now interval : Nat)
    (timers : Timers Alarm) :
    fillsOf (timers.periodic now interval .rollover).2.pending =
      fillsOf timers.pending := by
  unfold Timers.periodic fillsOf
  split <;> simp [Alarm.fill?]

theorem oneShot_periodic
    {timers : Timers Alarm}
    (now interval : Nat)
    (hOnce : OneShot timers.pending) :
    OneShot (timers.periodic now interval .rollover).2.pending := by
  intro timer hTimer fill hFill
  rcases List.mem_append.mp hTimer with hMem | hMem
  · exact hOnce timer hMem fill hFill
  · split at hMem
    · cases hMem
    · cases List.mem_singleton.mp hMem
      cases hFill

end OrderDesk
