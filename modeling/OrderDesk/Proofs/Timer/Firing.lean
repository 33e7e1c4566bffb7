import Mathlib.Data.List.Basic
import OrderDesk.Timer.Basic

/-
  This file proves what firing does to timers: those that
  are due fire in some order and none is left out, each
  timer by itself, and timers that fire once are gone then.

  Key definitions include:
    * `Timer.left?`
    * `Timer.told`

  Key theorems include:
    * `due_perm`
    * `pending_fire_perm`
    * `told_fire_perm`
    * `renewed_eq_some`
    * `lt_deadline_of_renewed`
    * `pending_fire_cases`
    * `fire_of_once`
    * `exists_deadline?_le`
    * `lt_deadline?_iff`
-/

namespace OrderDesk

variable {P : Type}

theorem insert_perm
    (timer : Timer P)
    (timers : List (Timer P)) :
    (Timers.insert timer timers).Perm (timer :: timers) := by
  induction timers with
  | nil => exact .refl _
  | cons other rest ih =>
      unfold Timers.insert
      split
      · exact .refl _
      · exact (ih.cons other).trans (.swap timer other rest)

/- The timers that are due are due in some order. -/
theorem due_perm
    (now : Nat)
    (timers : Timers P) :
    (timers.due now).Perm
      (timers.pending.filter (·.isDue now)) := by
  unfold Timers.due
  induction timers.pending.filter (·.isDue now) with
  | nil => exact .refl _
  | cons timer rest ih =>
      exact (insert_perm timer _).trans (ih.cons timer)

theorem mem_due_iff
    {now : Nat}
    {timers : Timers P}
    {timer : Timer P} :
    timer ∈ timers.due now ↔
      timer ∈ timers.pending ∧ timer.deadline ≤ now := by
  rw [(due_perm now timers).mem_iff, List.mem_filter]
  exact and_congr_right fun _ => decide_eq_true_iff

/- What is set of a timer after all due timers have fired. -/
def Timer.left?
    (now : Nat)
    (timer : Timer P) : Option (Timer P) :=
  if timer.isDue now then timer.renewed? now else some timer

/- What a timer fires when all due timers do. -/
def Timer.told
    (now : Nat)
    (timer : Timer P) : List P :=
  if timer.isDue now then
    List.replicate (timer.firings now) timer.payload
  else
    []

theorem Timer.left?_of_lt
    {now : Nat}
    {timer : Timer P}
    (hAhead : now < timer.deadline) :
    timer.left? now = some timer :=
  if_neg (by simpa [isDue] using hAhead)

theorem Timer.told_of_lt
    {now : Nat}
    {timer : Timer P}
    (hAhead : now < timer.deadline) :
    timer.told now = [] :=
  if_neg (by simpa [isDue] using hAhead)

/- A timer that fires at its deadline fires once. -/
theorem Timer.told_deadline
    (timer : Timer P) :
    timer.told timer.deadline = [timer.payload] := by
  have hFirings : timer.firings timer.deadline = 1 := by
    unfold firings isOverdue
    cases timer.interval <;> simp
  unfold told
  rw [if_pos (by simp [isDue]), hFirings]
  rfl

/-
  A timer that fires at its deadline is gone, or it is set
  anew for one interval later.
-/
theorem Timer.left?_deadline
    (timer : Timer P) :
    timer.left? timer.deadline =
      timer.interval.map fun interval =>
        { timer with deadline := timer.deadline + interval } := by
  unfold left? renewed? firings isOverdue
  rw [if_pos (by simp [isDue])]
  cases timer.interval <;> simp

/-
  Each timer is kept, set anew or gone by itself. Only the
  order of the timers that are set has to do with the others.
-/
theorem pending_fire_perm
    (now : Nat)
    (timers : Timers P) :
    (timers.fire now).2.pending.Perm
      (timers.pending.filterMap (·.left? now)) := by
  have hDue :
      (timers.pending.filter (·.isDue now)).filterMap
          (·.left? now) =
        (timers.pending.filter (·.isDue now)).filterMap
          (·.renewed? now) :=
    List.filterMap_congr fun _ hTimer =>
      if_pos (List.of_mem_filter hTimer)
  have hAhead :
      (timers.pending.filter (!·.isDue now)).filterMap
          (·.left? now) =
        timers.pending.filter (!·.isDue now) := by
    rw [← List.filterMap_some
      (l := timers.pending.filter (!·.isDue now))]
    rw [List.filterMap_filterMap]
    refine List.filterMap_congr fun timer hTimer => ?_
    apply Timer.left?_of_lt
    simpa [Timer.isDue] using List.of_mem_filter hTimer
  have hParts :=
    (List.filter_append_perm (·.isDue now)
      timers.pending).filterMap (·.left? now)
  rw [List.filterMap_append, hDue, hAhead] at hParts
  unfold Timers.fire
  simp only [decide_not, Bool.decide_eq_true]
  refine List.perm_append_comm.trans (.trans ?_ hParts)
  exact ((due_perm now timers).filterMap _).append_right _

/- Each timer fires by itself. -/
theorem told_fire_perm
    (now : Nat)
    (timers : Timers P) :
    (timers.fire now).1.Perm
      (timers.pending.flatMap (·.told now)) := by
  have hDue :
      (timers.pending.filter (·.isDue now)).flatMap (·.told now) =
        (timers.pending.filter (·.isDue now)).flatMap fun timer =>
          List.replicate (timer.firings now) timer.payload :=
    List.flatMap_congr fun _ hTimer =>
      if_pos (List.of_mem_filter hTimer)
  have hAhead :
      (timers.pending.filter (!·.isDue now)).flatMap
          (·.told now) = [] := by
    rw [List.flatMap_eq_nil_iff]
    intro timer hTimer
    apply Timer.told_of_lt
    simpa [Timer.isDue] using List.of_mem_filter hTimer
  have hParts :=
    (List.filter_append_perm (·.isDue now)
      timers.pending).flatMap_right (·.told now)
  rw [List.flatMap_append, hDue, hAhead, List.append_nil]
    at hParts
  exact ((due_perm now timers).flatMap_right _).trans hParts

/- A timer that is set anew stands for what it stood for. -/
theorem renewed_eq_some
    {now : Nat}
    {timer next : Timer P}
    (hNext : timer.renewed? now = some next) :
    next.payload = timer.payload ∧
      next.interval = timer.interval ∧
        timer.interval ≠ none := by
  unfold Timer.renewed? at hNext
  cases hInterval : timer.interval with
  | none =>
      rw [hInterval] at hNext
      cases hNext
  | some interval =>
      rw [hInterval, Option.map_some, Option.some.injEq] at hNext
      subst hNext
      split <;> exact ⟨rfl, rfl, by simp⟩

/- A timer that is set anew keeps its number. -/
theorem id_of_renewed
    {now : Nat}
    {timer next : Timer P}
    (hNext : timer.renewed? now = some next) :
    next.id = timer.id := by
  unfold Timer.renewed? at hNext
  rcases Option.map_eq_some_iff.mp hNext with ⟨interval, _, rfl⟩
  split <;> rfl

/- A timer that is set anew is set for later. -/
theorem lt_deadline_of_renewed
    {now : Nat}
    {timer next : Timer P}
    (hLasts : timer.interval ≠ some 0)
    (hDue : timer.deadline ≤ now)
    (hNext : timer.renewed? now = some next) :
    now < next.deadline := by
  unfold Timer.renewed? Timer.firings at hNext
  cases hInterval : timer.interval with
  | none =>
      rw [hInterval] at hNext
      cases hNext
  | some interval =>
      have hPos : 0 < interval := by
        rw [hInterval] at hLasts
        exact Nat.pos_of_ne_zero fun hZero => hLasts (by rw [hZero])
      rw [hInterval, Option.map_some, Option.some.injEq] at hNext
      subst hNext
      split
      · exact Nat.lt_add_of_pos_right hPos
      · have hGrid :=
          Nat.lt_div_mul_add hPos (a := now - timer.deadline)
        dsimp only
        rw [Nat.add_mul, Nat.one_mul]
        omega

/- What fires was due. -/
theorem exists_of_mem_fire
    {timers : Timers P}
    {now : Nat}
    {payload : P}
    (hFired : payload ∈ (timers.fire now).1) :
    ∃ timer ∈ timers.pending,
      timer.deadline ≤ now ∧ timer.payload = payload := by
  rcases List.mem_flatMap.mp hFired with ⟨timer, hTimer, hMem⟩
  rcases mem_due_iff.mp hTimer with ⟨hPending, hDue⟩
  exact
    ⟨timer, hPending, hDue, (List.eq_of_mem_replicate hMem).symm⟩

/- A timer that is set after firing was not due, or is set anew. -/
theorem pending_fire_cases
    {timers : Timers P}
    {now : Nat}
    {timer : Timer P}
    (hTimer : timer ∈ (timers.fire now).2.pending) :
    (timer ∈ timers.pending ∧ now < timer.deadline) ∨
      ∃ before ∈ timers.pending,
        before.deadline ≤ now ∧
          before.renewed? now = some timer := by
  rcases List.mem_append.mp hTimer with hKept | hRenewed
  · rcases List.mem_filter.mp hKept with ⟨hMem, hNotDue⟩
    exact .inl ⟨hMem, by simpa [Timer.isDue] using hNotDue⟩
  · rcases List.mem_filterMap.mp hRenewed with
      ⟨before, hBefore, hNext⟩
    rcases mem_due_iff.mp hBefore with ⟨hMem, hDue⟩
    exact .inr ⟨before, hMem, hDue, hNext⟩

/- Timers that fire once fire once, and are not set anew. -/
theorem fire_of_once
    {timers : Timers P}
    (now : Nat)
    (hOnce : ∀ timer ∈ timers.pending, timer.interval = none) :
    timers.fire now =
      ((timers.due now).map (·.payload),
        { timers with
          pending :=
            timers.pending.filter fun timer =>
              !timer.isDue now }) := by
  have hDue : ∀ timer ∈ timers.due now, timer.interval = none := by
    intro timer hTimer
    exact
      hOnce timer
        (List.mem_of_mem_filter
          ((due_perm now timers).mem_iff.mp hTimer))
  have hFirings :
      (timers.due now).flatMap (fun timer =>
          List.replicate (timer.firings now) timer.payload) =
        (timers.due now).map (·.payload) := by
    rw [List.map_eq_flatMap]
    refine List.flatMap_congr ?_
    intro timer hTimer
    unfold Timer.firings
    rw [hDue timer hTimer]
    rfl
  have hRenewed :
      (timers.due now).filterMap (·.renewed? now) = [] := by
    rw [List.filterMap_eq_nil_iff]
    intro timer hTimer
    unfold Timer.renewed?
    rw [hDue timer hTimer]
    rfl
  unfold Timers.fire
  dsimp only
  rw [hFirings, hRenewed, List.append_nil]
  simp

/- No timer is set for earlier than the earliest deadline. -/
theorem exists_deadline?_le
    {timers : Timers P}
    {timer : Timer P}
    (hTimer : timer ∈ timers.pending) :
    ∃ deadline,
      timers.deadline? = some deadline ∧
        deadline ≤ timer.deadline := by
  have hMem := List.mem_map_of_mem (f := fun t => t.deadline) hTimer
  rcases Option.isSome_iff_exists.mp
      (List.isSome_min?_of_mem hMem) with
    ⟨deadline, hDeadline⟩
  exact
    ⟨deadline, hDeadline,
      (List.min?_eq_some_iff.mp hDeadline).2 _ hMem⟩

theorem deadline?_le
    {timers : Timers P}
    {deadline : Nat}
    (hDeadline : timers.deadline? = some deadline)
    {timer : Timer P}
    (hTimer : timer ∈ timers.pending) :
    deadline ≤ timer.deadline :=
  (List.min?_eq_some_iff.mp hDeadline).2 _
    (List.mem_map_of_mem (f := fun t => t.deadline) hTimer)

theorem exists_of_deadline?_eq
    {timers : Timers P}
    {deadline : Nat}
    (hDeadline : timers.deadline? = some deadline) :
    ∃ timer ∈ timers.pending, timer.deadline = deadline :=
  List.mem_map.mp (List.min?_eq_some_iff.mp hDeadline).1

/- All deadlines are later if the earliest is. -/
theorem lt_deadline?_iff
    {timers : Timers P}
    {time : Nat} :
    (∀ deadline ∈ timers.deadline?, time < deadline) ↔
      ∀ timer ∈ timers.pending, time < timer.deadline := by
  constructor
  · intro hEarliest timer hTimer
    rcases exists_deadline?_le hTimer with
      ⟨deadline, hDeadline, hLe⟩
    exact Nat.lt_of_lt_of_le (hEarliest deadline hDeadline) hLe
  · intro hAll deadline hDeadline
    rcases exists_of_deadline?_eq hDeadline with
      ⟨timer, hTimer, rfl⟩
    exact hAll timer hTimer

theorem cancel_sublist
    (id : Nat)
    (timers : Timers P) :
    (timers.cancel id).pending.Sublist timers.pending :=
  List.filter_sublist

end OrderDesk
