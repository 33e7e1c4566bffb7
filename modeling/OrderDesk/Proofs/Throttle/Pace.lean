import OrderDesk.Proofs.Throttle.Marks
import OrderDesk.Proofs.Throttle.Passage

/-
  This file proves how fast items can come out of a
  throttler, whenever it is started and stopped: at most its
  limit from one rollover to the next, where rollovers are
  at least its interval apart, and so at most one window
  more than a span of time has intervals.

  Time passes from deadline to deadline. A timer fires at
  its deadline, before or after all else that happens at
  that time.

  Key definitions include:
    * `Happening`
    * `Line.happen`
    * `Line.notes`
    * `Line.HasClock`
    * `Line.IsNoted`
    * `Line.IsPaced`
    * `Line.KeepsPace`

  Key theorems include:
    * `Line.IsNoted.carry`
    * `Line.IsPaced.happen`
    * `Line.keepsPace_live`
    * `Line.exists_live_eq_advance`
-/

namespace OrderDesk

------------------------------------------------------------
-- Lines In Time
------------------------------------------------------------

/-
  What can happen to a throttler in time. Its timer may fire
  only if it is due, and has to before time goes on.
-/
inductive Happening (α : Type) where
  | send (item : α)
  | start
  | stop
  | wait (ms : Nat)
  | fire

namespace Line

variable {α : Type} {line next : Line α}

/- Let time pass, but not beyond a deadline. -/
def wait
    (ms : Nat)
    (line : Line α) : Line α :=
  if ∀ deadline ∈ line.timers.deadline?,
      line.now + ms ≤ deadline then
    { line with now := line.now + ms }
  else
    line

/- Let something happen. -/
def happen
    (line : Line α) :
    Happening α → Line α
| .send item => line.send item
| .start => line.start
| .stop => line.stop
| .wait ms => line.wait ms
| .fire => line.wake line.now

/- Let one thing happen after the other. -/
def live
    (line : Line α)
    (happenings : List (Happening α)) : Line α :=
  happenings.foldl happen line

/- How often the window rolls over when something happens. -/
def rolls
    (line : Line α) :
    Happening α → Nat
| .fire => (line.timers.fire line.now).1.length
| _ => 0

/-
  What is noted when something happens: a window that begins
  comes before the items that it lets pass.
-/
def note
    (line : Line α)
    (happening : Happening α) : List (Mark α) :=
  List.replicate (line.rolls happening) (.rolled line.now) ++
    ((line.happen happening).delivered.drop
      line.delivered.length).map
        fun delivery => .passed delivery.1 delivery.2

/- What is noted when one thing happens after the other. -/
def notes :
    Line α → List (Happening α) → List (Mark α)
| _, [] => []
| line, happening :: rest =>
    line.note happening ++ (line.happen happening).notes rest

theorem live_append
    (line : Line α)
    (first second : List (Happening α)) :
    line.live (first ++ second) = (line.live first).live second :=
  List.foldl_append

theorem live_concat
    (line : Line α)
    (happenings : List (Happening α))
    (happening : Happening α) :
    line.live (happenings ++ [happening]) =
      (line.live happenings).happen happening :=
  line.live_append happenings [happening]

theorem notes_concat
    (line : Line α)
    (happenings : List (Happening α))
    (happening : Happening α) :
    line.notes (happenings ++ [happening]) =
      line.notes happenings ++
        (line.live happenings).note happening := by
  induction happenings generalizing line with
  | nil => simp [notes, live]
  | cons first rest ih =>
      rw [List.cons_append, notes, notes, ih, List.append_assoc]
      rfl

/- What a line hands on is noted. -/
theorem note_of_delivered
    {passed : List α}
    (happening : Happening α)
    (hDelivered :
      (line.happen happening).delivered =
        line.delivered ++
          passed.map fun item => (item, line.now)) :
    line.note happening =
      List.replicate (line.rolls happening) (.rolled line.now) ++
        passages passed line.now := by
  unfold note passages
  rw [hDelivered, List.drop_left, List.map_map]
  rfl

/- Nothing is noted if no window begins and nothing is handed on. -/
theorem note_of_idle
    (happening : Happening α)
    (hRolls : line.rolls happening = 0)
    (hDelivered :
      (line.happen happening).delivered = line.delivered) :
    line.note happening = [] := by
  unfold note
  rw [hRolls, hDelivered, List.drop_length]
  rfl

------------------------------------------------------------
-- Clocks
------------------------------------------------------------

/-
  A throttler that is started has the only timer there is,
  and its deadline has not passed. One that is stopped has
  no timer.
-/
inductive HasClock
    (line : Line α) :
    Option Nat → Prop where
  | stopped
      (hTimer : line.throttler.timer = none)
      (hPending : line.timers.pending = []) :
      HasClock line none
  | started
      (id deadline : Nat)
      (hTimer : line.throttler.timer = some id)
      (hPending :
        line.timers.pending =
          [⟨id, deadline, some line.throttler.intervalMs, ()⟩])
      (hAhead : line.now ≤ deadline) :
      HasClock line (some deadline)

theorem HasClock.deadline?_eq
    {deadline? : Option Nat}
    (hClock : line.HasClock deadline?) :
    line.timers.deadline? = deadline? := by
  cases hClock with
  | stopped hTimer hPending =>
      unfold Timers.deadline?
      rw [hPending]
      rfl
  | started id deadline hTimer hPending hAhead =>
      unfold Timers.deadline?
      rw [hPending]
      rfl

/- What does not touch the timer leaves the clock as it is. -/
theorem HasClock.keep
    {deadline? : Option Nat}
    (hClock : line.HasClock deadline?)
    (hTimer : next.throttler.timer = line.throttler.timer)
    (hTimers : next.timers = line.timers)
    (hInterval :
      next.throttler.intervalMs = line.throttler.intervalMs)
    (hNow : next.now = line.now) :
    next.HasClock deadline? := by
  cases hClock with
  | stopped hNone hPending =>
      apply HasClock.stopped
      · exact hTimer.trans hNone
      · rw [hTimers]
        exact hPending
  | started id deadline hSome hPending hAhead =>
      apply HasClock.started id deadline
      · exact hTimer.trans hSome
      · rw [hTimers, hInterval]
        exact hPending
      · rw [hNow]
        exact hAhead

theorem HasClock.send
    {deadline? : Option Nat}
    (hClock : line.HasClock deadline?)
    (item : α) :
    (line.send item).HasClock deadline? := by
  apply hClock.keep
  · dsimp only [Line.send, Throttler.send, Throttler.put]
    rw [throttler_forward]
  · dsimp only [Line.send]
    rw [timers_forward]
  · dsimp only [Line.send, Throttler.send, Throttler.put]
    rw [throttler_forward]
  · dsimp only [Line.send]
    rw [now_forward]

@[simp] theorem now_start
    (line : Line α) :
    line.start.now = line.now := by
  dsimp only [start]
  rw [now_forward]

theorem HasClock.start_again
    {deadline : Nat}
    (hClock : line.HasClock (some deadline)) :
    line.start.HasClock (some deadline) := by
  cases id hClock with
  | started id deadline hTimer hPending hAhead =>
      rcases throttler_start_of_some hTimer with
        ⟨hThrottler, hTimers⟩
      apply hClock.keep
      · rw [hThrottler]
      · exact hTimers
      · rw [hThrottler]
      · exact now_start line

theorem HasClock.start
    (hClock : line.HasClock none) :
    line.start.HasClock
      (some (line.now + line.throttler.intervalMs)) := by
  cases hClock with
  | stopped hTimer hPending =>
      rcases throttler_start_of_none hTimer with
        ⟨hThrottler, hTimers⟩
      have hPositive :=
        Nat.pos_iff_ne_zero.mp line.throttler.intervalMs_pos
      apply HasClock.started line.timers.next
      · rw [hThrottler]
      · rw [hTimers, hThrottler]
        simp [Timers.periodic, hPending, hPositive]
      · rw [now_start]
        exact Nat.le_add_right _ _

theorem HasClock.stop
    {deadline? : Option Nat}
    (hClock : line.HasClock deadline?) :
    line.stop.HasClock none := by
  apply HasClock.stopped
  · rfl
  · cases hClock with
    | stopped hTimer hPending =>
        simp [Line.stop, Throttler.stop, hTimer, hPending]
    | started id deadline hTimer hPending hAhead =>
        simp [Line.stop, Throttler.stop, hTimer, Timers.cancel,
          hPending]

theorem HasClock.wait
    {deadline? : Option Nat}
    (hClock : line.HasClock deadline?)
    (ms : Nat) :
    (line.wait ms).HasClock deadline? := by
  unfold Line.wait
  rw [hClock.deadline?_eq]
  split
  · rename_i hWithin
    cases hClock with
    | stopped hTimer hPending => exact .stopped hTimer hPending
    | started id deadline hTimer hPending hAhead =>
        exact
          .started id deadline hTimer hPending
            (hWithin deadline rfl)
  · exact hClock

/- A timer that is not due does not fire. -/
theorem fire_of_hasClock
    {deadline? : Option Nat}
    (hClock : line.HasClock deadline?)
    (hEarly : ∀ deadline ∈ deadline?, line.now < deadline) :
    line.timers.fire line.now = ([], line.timers) := by
  have hNone :
      ∀ timer ∈ line.timers.pending,
        timer.isDue line.now = false := by
    intro timer hTimer
    cases hClock with
    | stopped hTimer' hPending =>
        rw [hPending] at hTimer
        cases hTimer
    | started id deadline hTimer' hPending hAhead =>
        rw [hPending] at hTimer
        cases List.mem_singleton.mp hTimer
        have hLater := hEarly deadline rfl
        simpa [Timer.isDue] using hLater
  have hDue : line.timers.pending.filter (·.isDue line.now) = [] := by
    rw [List.filter_eq_nil_iff]
    intro timer hTimer
    rw [hNone timer hTimer]
    exact Bool.false_ne_true
  have hKept :
      line.timers.pending.filter
          (fun timer => !timer.isDue line.now) =
        line.timers.pending := by
    rw [List.filter_eq_self]
    intro timer hTimer
    rw [hNone timer hTimer]
    rfl
  simp [Timers.fire, Timers.due, hDue, hKept]

/- A timer that is due fires once and is set anew. -/
theorem fire_of_due
    {timers : Timers Unit}
    {id now interval : Nat}
    (hPending : timers.pending = [⟨id, now, some interval, ()⟩]) :
    timers.fire now =
      ([()],
        { timers with
          pending :=
            [⟨id, now + interval, some interval, ()⟩] }) := by
  simp [Timers.fire, Timers.due, Timers.insert, Timer.isDue,
    Timer.firings, Timer.isOverdue, Timer.renewed?, hPending]

/- A throttler whose timer fires rolls over. -/
theorem wake_of_fire
    {now : Nat}
    {timers : Timers Unit}
    (hFire : line.timers.fire now = ([()], timers)) :
    line.wake now =
      { line with now := now, timers := timers }.roll := by
  unfold wake
  rw [hFire]
  rfl

theorem HasClock.fire
    (hClock : line.HasClock (some line.now)) :
    (line.wake line.now).HasClock
      (some (line.now + line.throttler.intervalMs)) := by
  cases hClock with
  | started id deadline hTimer hPending hAhead =>
      rw [wake_of_fire (fire_of_due hPending)]
      dsimp only [roll, Throttler.roll, Throttler.put]
      apply HasClock.started id
      · rw [throttler_forward]
        exact hTimer
      · rw [timers_forward, throttler_forward]
      · rw [now_forward]
        exact Nat.le_add_right _ _

/- A throttler whose timer fires begins a window. -/
theorem carries_wake_of_fire
    {timers : Timers Unit}
    (hTotal : line.downstream.refusal? = none)
    (hFire : line.timers.fire line.now = ([()], timers)) :
    ∃ passed, line.Carries 0 [] passed (line.wake line.now) := by
  rw [wake_of_fire hFire]
  -- The timer is set anew first, which a rollover does not see.
  have hReady :
      { line with timers := timers }.downstream.refusal? = none :=
    hTotal
  rcases carries_roll hReady with ⟨passed, hCarries⟩
  exact
    ⟨passed, hCarries.window, hCarries.delivered,
      hCarries.downstream, hCarries.now, hCarries.interval⟩

------------------------------------------------------------
-- What Is Noted
------------------------------------------------------------

/-
  The notes about a line: they tell what came out of it, in
  the order of time, and keep to the limit and the interval.
  No more than `count` items have passed in this window.
-/
structure IsNoted
    (line : Line α)
    (limit interval count : Nat)
    (marks : List (Mark α)) : Prop where
  told : line.delivered = deliveries marks
  sorted :
    marks.Pairwise fun first second => first.time ≤ second.time
  past : ∀ mark ∈ marks, mark.time ≤ line.now
  room : count ≤ limit
  recent : IsRecent count marks
  windowed : IsWindowed limit marks
  spaced : IsSpaced interval (rollovers marks)

variable {limit interval count : Nat} {marks : List (Mark α)}

theorem isNoted_new
    (throttler : Throttler α)
    (downstream : Downstream) :
    (new throttler downstream).IsNoted limit interval 0 [] where
  told := rfl
  sorted := List.Pairwise.nil
  past := by
    intro mark hMark
    cases hMark
  room := Nat.zero_le _
  recent := by
    intro last hLast _
    exact hLast.length_le
  windowed := by
    intro middle hMiddle _
    exact hMiddle.length_le.trans (Nat.zero_le _)
  spaced := List.Pairwise.nil

/- Marks of the present come after all others. -/
theorem IsNoted.sorted_append
    {more : List (Mark α)}
    (hNoted : line.IsNoted limit interval count marks)
    (hMore : ∀ mark ∈ more, mark.time = line.now) :
    (marks ++ more).Pairwise
      fun first second => first.time ≤ second.time := by
  rw [List.pairwise_append]
  refine ⟨hNoted.sorted, ?_, ?_⟩
  · apply List.pairwise_of_forall_mem_list
    intro first hFirst second hSecond
    rw [hMore first hFirst, hMore second hSecond]
  · intro first hFirst second hSecond
    rw [hMore second hSecond]
    exact hNoted.past first hFirst

/- What passes at a line is noted. -/
theorem IsNoted.carry
    {came passed : List α}
    (hNoted : line.IsNoted limit interval count marks)
    (hCarries : line.Carries count came passed next)
    (hLimit : line.throttler.window.limit = limit) :
    next.IsNoted limit interval next.throttler.window.sent
      (marks ++ passages passed line.now) := by
  have hCount := hCarries.window.count
  have hRoom : next.throttler.window.sent ≤ limit := by
    have hBounded := hCarries.window.bounded
    rw [hCarries.window.limit, hLimit] at hBounded
    exact hBounded hNoted.room
  constructor
  · rw [hCarries.delivered, hNoted.told, deliveries_append,
      deliveries_passages]
  · apply hNoted.sorted_append
    intro mark hMark
    exact time_of_mem_passages passed line.now hMark
  · intro mark hMark
    rw [hCarries.now]
    rcases List.mem_append.mp hMark with hOld | hNew
    · exact hNoted.past mark hOld
    · exact (time_of_mem_passages passed line.now hNew).le
  · exact hRoom
  · rw [hCount]
    exact hNoted.recent.append_passages passed line.now
  · apply hNoted.windowed.append_passages hNoted.recent
    rw [← hCount]
    exact hRoom
  · rw [rollovers_append, rollovers_passages, List.append_nil]
    exact hNoted.spaced

theorem IsNoted.roll
    (hNoted : line.IsNoted limit interval count marks)
    (hSpaced :
      ∀ time ∈ rollovers marks, time + interval ≤ line.now) :
    line.IsNoted limit interval 0
      (marks ++ [.rolled line.now]) := by
  constructor
  · rw [deliveries_append, hNoted.told]
    exact (List.append_nil _).symm
  · apply hNoted.sorted_append
    intro mark hMark
    cases List.mem_singleton.mp hMark
    rfl
  · intro mark hMark
    rcases List.mem_append.mp hMark with hOld | hNew
    · exact hNoted.past mark hOld
    · cases List.mem_singleton.mp hNew
      exact Nat.le_refl _
  · exact Nat.zero_le _
  · exact isRecent_begin_window marks line.now
  · exact hNoted.windowed.begin_window line.now
  · rw [rollovers_append]
    unfold IsSpaced
    rw [List.pairwise_append]
    refine ⟨hNoted.spaced, List.pairwise_singleton _ _, ?_⟩
    intro first hFirst second hSecond
    cases List.mem_singleton.mp hSecond
    exact hSpaced first hFirst

------------------------------------------------------------
-- The Invariant
------------------------------------------------------------

/-
  What everything that happens preserves: the notes are
  kept, and the next deadline is no less than an interval
  after every rollover.
-/
structure IsPaced
    (line : Line α)
    (limit interval : Nat)
    (marks : List (Mark α)) : Prop where
  total : line.downstream.refusal? = none
  limit_eq : line.throttler.window.limit = limit
  interval_eq : line.throttler.intervalMs = interval
  noted :
    line.IsNoted limit interval line.throttler.window.sent marks
  clock :
    ∃ deadline?,
      line.HasClock deadline? ∧
        ∀ deadline ∈ deadline?,
          ∀ time ∈ rollovers marks, time + interval ≤ deadline

/-
  A line that carries items on is paced if its clock is
  right: the items that pass are noted, and begin no window.
-/
theorem isPaced_of_carries
    {came passed : List α}
    {deadline? : Option Nat}
    (hTotal : line.downstream.refusal? = none)
    (hLimit : line.throttler.window.limit = limit)
    (hInterval : line.throttler.intervalMs = interval)
    (hNoted : line.IsNoted limit interval count marks)
    (hCarries : line.Carries count came passed next)
    (hClock : next.HasClock deadline?)
    (hSpaced :
      ∀ deadline ∈ deadline?,
        ∀ time ∈ rollovers marks, time + interval ≤ deadline) :
    next.IsPaced limit interval
      (marks ++ passages passed line.now) where
  total := by
    rw [hCarries.downstream]
    exact hTotal
  limit_eq := by
    rw [hCarries.window.limit]
    exact hLimit
  interval_eq := by
    rw [hCarries.interval]
    exact hInterval
  noted := hNoted.carry hCarries hLimit
  clock := by
    refine ⟨deadline?, hClock, ?_⟩
    rw [rollovers_append, rollovers_passages, List.append_nil]
    exact hSpaced

/- Items that pass in the present window do not put the clock off. -/
theorem IsPaced.carry
    {came passed : List α}
    {deadline? : Option Nat}
    (hPaced : line.IsPaced limit interval marks)
    (hCarries :
      line.Carries line.throttler.window.sent came passed next)
    (hClock : next.HasClock deadline?)
    (hSpaced :
      ∀ deadline ∈ deadline?,
        ∀ time ∈ rollovers marks, time + interval ≤ deadline) :
    next.IsPaced limit interval
      (marks ++ passages passed line.now) :=
  isPaced_of_carries hPaced.total hPaced.limit_eq
    hPaced.interval_eq hPaced.noted hCarries hClock hSpaced

/- All that was noted lies in the past. -/
theorem IsPaced.le_now_of_mem_rollovers
    {time : Nat}
    (hPaced : line.IsPaced limit interval marks)
    (hTime : time ∈ rollovers marks) :
    time ≤ line.now := by
  rcases List.mem_filterMap.mp hTime with ⟨mark, hMark, hRolled⟩
  cases mark with
  | passed item other => cases hRolled
  | rolled other =>
      cases hRolled
      exact hPaced.noted.past _ hMark

theorem IsPaced.send
    (hPaced : line.IsPaced limit interval marks)
    (item : α) :
    (line.send item).IsPaced limit interval
      (marks ++ line.note (.send item)) := by
  rcases carries_send item hPaced.total with ⟨passed, hCarries⟩
  rcases hPaced.clock with ⟨deadline?, hClock, hSpaced⟩
  rw [note_of_delivered (.send item) hCarries.delivered]
  exact hPaced.carry hCarries (hClock.send item) hSpaced

theorem IsPaced.start
    (hPaced : line.IsPaced limit interval marks) :
    line.start.IsPaced limit interval
      (marks ++ line.note .start) := by
  rcases carries_start hPaced.total with ⟨passed, hCarries⟩
  rcases hPaced.clock with ⟨deadline?, hClock, hSpaced⟩
  rw [note_of_delivered .start hCarries.delivered]
  cases deadline? with
  | some deadline =>
      exact hPaced.carry hCarries hClock.start_again hSpaced
  | none =>
      apply hPaced.carry hCarries hClock.start
      intro deadline hDeadline time hTime
      cases hDeadline
      have hPast := hPaced.le_now_of_mem_rollovers hTime
      rw [hPaced.interval_eq]
      omega

theorem IsPaced.stop
    (hPaced : line.IsPaced limit interval marks) :
    line.stop.IsPaced limit interval
      (marks ++ line.note .stop) := by
  have hCarries := carries_stop line
  rcases hPaced.clock with ⟨deadline?, hClock, hSpaced⟩
  rw [note_of_delivered .stop hCarries.delivered]
  apply hPaced.carry hCarries hClock.stop
  intro deadline hDeadline
  cases hDeadline

theorem IsPaced.wait
    (hPaced : line.IsPaced limit interval marks)
    (ms : Nat) :
    (line.wait ms).IsPaced limit interval
      (marks ++ line.note (.wait ms)) := by
  rcases hPaced.clock with ⟨deadline?, hClock, hSpaced⟩
  have hWait := hClock.wait ms
  have hNoted := hPaced.noted
  have hNothing : line.note (.wait ms) = [] := by
    apply note_of_idle
    · rfl
    · dsimp only [happen, Line.wait]
      split <;> rfl
  rw [hNothing, List.append_nil]
  unfold Line.wait at hWait ⊢
  split at hWait
  · rename_i hWithin
    rw [if_pos hWithin]
    exact
      { hPaced with
        noted :=
          { hNoted with
            past := by
              intro mark hMark
              have hPast := hNoted.past mark hMark
              dsimp only
              omega }
        clock := ⟨deadline?, hWait, hSpaced⟩ }
  · rename_i hBeyond
    rw [if_neg hBeyond]
    exact hPaced

theorem IsPaced.fire
    (hPaced : line.IsPaced limit interval marks) :
    (line.wake line.now).IsPaced limit interval
      (marks ++ line.note .fire) := by
  rcases hPaced.clock with ⟨deadline?, hClock, hSpaced⟩
  by_cases hEarly : ∀ deadline ∈ deadline?, line.now < deadline
  · -- Nothing is due, so nothing happens.
    have hFire := fire_of_hasClock hClock hEarly
    have hWake : line.wake line.now = line := by
      unfold wake
      rw [hFire]
      rfl
    have hNothing : line.note .fire = [] := by
      apply note_of_idle
      · dsimp only [rolls]
        rw [hFire]
        rfl
      · dsimp only [happen]
        rw [hWake]
    rw [hNothing, hWake, List.append_nil]
    exact hPaced
  · push Not at hEarly
    rcases hEarly with ⟨deadline, hDeadline, hLate⟩
    cases hDeadline
    have hFires := hClock
    cases hClock with
    | started id deadline hTimer hPending hAhead =>
        have hDue : deadline = line.now :=
          Nat.le_antisymm hLate hAhead
        subst hDue
        have hFire := fire_of_due hPending
        have hRolls : line.rolls .fire = 1 := by
          dsimp only [rolls]
          rw [hFire]
          rfl
        have hSettled := hSpaced line.now rfl
        have hNoted := hPaced.noted.roll hSettled
        rcases carries_wake_of_fire hPaced.total hFire with
          ⟨passed, hCarries⟩
        rw [note_of_delivered .fire hCarries.delivered, hRolls,
          List.replicate_one, ← List.append_assoc]
        apply
          isPaced_of_carries hPaced.total hPaced.limit_eq
            hPaced.interval_eq hNoted hCarries hFires.fire
        intro deadline hDeadline time hTime
        cases hDeadline
        rw [rollovers_append] at hTime
        rw [hPaced.interval_eq]
        rcases List.mem_append.mp hTime with hOld | hNew
        · exact (hSettled time hOld).trans (Nat.le_add_right _ _)
        · cases List.mem_singleton.mp hNew
          exact Nat.le_refl _

/- Whatever happens leaves the throttler in its pace. -/
theorem IsPaced.happen
    (hPaced : line.IsPaced limit interval marks)
    (happening : Happening α) :
    (line.happen happening).IsPaced limit interval
      (marks ++ line.note happening) := by
  cases happening with
  | send item => exact hPaced.send item
  | start => exact hPaced.start
  | stop => exact hPaced.stop
  | wait ms => exact hPaced.wait ms
  | fire => exact hPaced.fire

------------------------------------------------------------
-- The Pace Of A Throttler
------------------------------------------------------------

/- A new throttler keeps its pace through all that happens. -/
theorem isPaced_live
    {name : String}
    {throttler : Throttler α}
    {downstream : Downstream}
    (hNew : Throttler.new name interval limit = .ok throttler)
    (hTotal : downstream.refusal? = none)
    (happenings : List (Happening α)) :
    ((new throttler downstream).live happenings).IsPaced limit
      interval ((new throttler downstream).notes happenings) := by
  induction happenings using List.reverseRecOn with
  | nil =>
      rcases Throttler.eq_of_new hNew with ⟨_, _, rfl⟩
      refine ⟨hTotal, rfl, rfl, isNoted_new _ _, none, ?_, ?_⟩
      · exact HasClock.stopped rfl rfl
      · intro deadline hDeadline
        cases hDeadline
  | append_singleton happenings happening ih =>
      rw [live_concat, notes_concat]
      exact ih.happen happening

/-
  How fast items come out of a line, by the notes about it:
  at most `limit` from one rollover to the next, and before
  the first and after the last; rollovers are at least an
  interval apart; and so in a span of some intervals at most
  the limit for each of them, and once more.
-/
structure KeepsPace
    (line : Line α)
    (limit interval : Nat)
    (marks : List (Mark α)) : Prop where
  told : line.delivered = deliveries marks
  windowed : IsWindowed limit marks
  spaced : IsSpaced interval (rollovers marks)
  spans :
    ∀ n start,
      line.delivered.countP
          (fun delivery =>
            InSpan start (n * interval) delivery.2) ≤
        (n + 1) * limit

/- Items come out of a throttler at its pace, whatever happens. -/
theorem keepsPace_live
    {name : String}
    {throttler : Throttler α}
    {downstream : Downstream}
    (hNew : Throttler.new name interval limit = .ok throttler)
    (hTotal : downstream.refusal? = none)
    (happenings : List (Happening α)) :
    ((new throttler downstream).live happenings).KeepsPace limit
      interval ((new throttler downstream).notes happenings) := by
  have hNoted := (isPaced_live hNew hTotal happenings).noted
  refine ⟨hNoted.told, hNoted.windowed, hNoted.spaced, ?_⟩
  intro n start
  rw [hNoted.told]
  exact
    countP_deliveries_le hNoted.windowed hNoted.spaced
      hNoted.sorted n start

/-
  A throttler that is stopped and started anew before its
  window is over, and stopped and started again after it.
-/
def restarted : List (Happening Nat) :=
  [.start, .send 1, .send 2, .send 3, .wait 400, .stop, .start,
    .send 4, .send 5, .wait 1000, .fire, .wait 300, .stop,
    .start, .wait 1000, .fire]

/-
  The window goes on after the first restart, and the timer
  starts from there. So three numbers pass in two seconds
  from the first rollover on, where six would be allowed.
-/
theorem keepsPace_live_restarted :
    Throttler.new "orders" 1000 2 = .ok twoASecond ∧
      Downstream.consumer.refusal? = none ∧
      ((new twoASecond .consumer).live restarted).KeepsPace 2 1000
        ((new twoASecond .consumer).notes restarted) ∧
      ((new twoASecond .consumer).live restarted).delivered =
        [(1, 0), (2, 0), (3, 1400), (4, 1400), (5, 2700)] ∧
      rollovers ((new twoASecond .consumer).notes restarted) =
        [1400, 2700] := by
  have hNew : Throttler.new "orders" 1000 2 = .ok twoASecond := rfl
  have hTotal : Downstream.consumer.refusal? = none := rfl
  exact
    ⟨hNew, hTotal, keepsPace_live hNew hTotal restarted, rfl, rfl⟩

------------------------------------------------------------
-- From Deadline To Deadline
------------------------------------------------------------

/- Time passes if there is no deadline before then. -/
theorem wait_of_le
    {deadline? : Option Nat}
    {time : Nat}
    (hClock : line.HasClock deadline?)
    (hTime : line.now ≤ time)
    (hWithin : ∀ deadline ∈ deadline?, time ≤ deadline) :
    line.wait (time - line.now) = { line with now := time } := by
  unfold wait
  rw [hClock.deadline?_eq, Nat.add_sub_cancel' hTime,
    if_pos hWithin]

theorem now_wake
    (line : Line α)
    (now : Nat) :
    (line.wake now).now = now := by
  have hRolls :
      ∀ (firings : List Unit) (line : Line α),
        (firings.foldl (fun line _ => line.roll) line).now =
          line.now := by
    intro firings
    induction firings with
    | nil =>
        intro line
        rfl
    | cons firing firings ih =>
        intro line
        rw [List.foldl_cons, ih]
        dsimp only [roll]
        rw [now_forward]
  unfold wake
  exact hRolls _ _

/-
  Letting an amount of time pass in one go, when no timer is
  due, is one of the things that can happen: the timer fires
  at each deadline.
-/
theorem exists_live_eq_advance
    {name : String}
    {throttler : Throttler α}
    {downstream : Downstream}
    (hNew : Throttler.new name interval limit = .ok throttler)
    (hTotal : downstream.refusal? = none)
    (happenings : List (Happening α))
    (hAhead :
      ∀ deadline ∈
          ((new throttler downstream).live
            happenings).timers.deadline?,
        ((new throttler downstream).live happenings).now <
          deadline)
    (ms : Nat) :
    ∃ more,
      (new throttler downstream).live (happenings ++ more) =
        ((new throttler downstream).live happenings).advance
          ms := by
  rcases (isPaced_live hNew hTotal happenings).clock with
    ⟨deadline?, hClock, _⟩
  rw [hClock.deadline?_eq] at hAhead
  simp only [live_append]
  generalize (new throttler downstream).live happenings = line
    at hClock hAhead ⊢
  refine
    Timed.advance_induction
      (fun now (next : Line α) =>
        next.now = now ∧
          (∃ deadline?, next.HasClock deadline? ∧
            ∀ deadline ∈ deadline?, now < deadline) ∧
            ∃ more, line.live more = next)
      (fun last : Line α =>
        ∃ more, line.live more = { last with now := line.now + ms })
      ?_ ?_ (Nat.le_add_right _ ms)
      ⟨rfl, ⟨deadline?, hClock, hAhead⟩, [], rfl⟩
  · rintro _ next deadline ⟨rfl, ⟨deadline?, hClock, _⟩, more, rfl⟩
      hLater hDeadline
    cases hClock.deadline?_eq.symm.trans hDeadline
    have hWait := wait_of_le hClock (Nat.le_of_lt hLater)
      fun other hOther => Nat.le_of_eq (Option.some.inj hOther)
    have hDue := hClock.wait (deadline - (line.live more).now)
    rw [hWait] at hDue
    refine ⟨now_wake _ deadline, ⟨_, hDue.fire, ?_⟩, ?_⟩
    · rintro next ⟨⟩
      exact
        Nat.lt_add_of_pos_right
          (line.live more).throttler.intervalMs_pos
    · refine
        ⟨more ++
          [.wait (deadline - (line.live more).now), .fire], ?_⟩
      rw [live_append]
      change
        ((line.live more).wait
            (deadline - (line.live more).now)).happen .fire = _
      rw [hWait]
      rfl
  · rintro _ next ⟨rfl, ⟨deadline?, hClock, hAhead⟩, more, rfl⟩
      hLater hRest
    have hDeadline := hClock.deadline?_eq
    refine ⟨more ++ [.wait (line.now + ms - (line.live more).now)], ?_⟩
    rw [live_append]
    apply wait_of_le hClock hLater
    intro deadline hSome
    rw [hSome] at hDeadline
    exact
      Nat.le_of_lt
        (hRest deadline hDeadline (hAhead deadline hSome))

end Line

end OrderDesk
