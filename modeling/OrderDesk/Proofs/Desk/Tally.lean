import OrderDesk.Proofs.Desk.Fate
import OrderDesk.Proofs.Engine.Census

/-
  This file proves that the books of a desk stay in order
  from beat to beat: every order is in some phase, and the
  orders that were submitted are those that the venue has
  accepted and those that are on their way there.

  Key definitions include:
    * `KeepsTimers`
    * `Desk.Tallies`

  Key theorems include:
    * `Desk.Tallies.beat`
    * `Desk.Tallies.live`
-/

namespace OrderDesk

------------------------------------------------------------
-- Timers
------------------------------------------------------------

/-
  No fill is repeated, timers bear numbers that were given
  out, and the one that the throttler holds is its own.
-/
structure KeepsTimers
    (timers : Timers Alarm)
    (held : Option Nat) : Prop where
  oneShot : OneShot timers.pending
  given : ∀ timer ∈ timers.pending, timer.id < timers.next
  held_lt : ∀ number ∈ held, number < timers.next
  rollover :
    ∀ timer ∈ timers.pending,
      timer.id ∈ held → timer.payload = .rollover

namespace KeepsTimers

variable {timers : Timers Alarm} {held : Option Nat}

/- Of a timer that is set after firing there was one before. -/
theorem exists_of_mem_pending_fire
    {now : Nat}
    {timer : Timer Alarm}
    (hTimer : timer ∈ (timers.fire now).2.pending) :
    ∃ before ∈ timers.pending,
      before.id = timer.id ∧ before.payload = timer.payload := by
  rcases pending_fire_cases hTimer with
    ⟨hKept, _⟩ | ⟨before, hBefore, _, hNext⟩
  · exact ⟨timer, hKept, rfl, rfl⟩
  · exact
      ⟨before, hBefore, (id_of_renewed hNext).symm,
        (renewed_eq_some hNext).1.symm⟩

theorem once
    (now delay : Nat)
    (pending : PendingFill)
    (hKeeps : KeepsTimers timers held) :
    KeepsTimers (timers.once now delay (.fill pending)).2 held where
  oneShot := by
    intro timer hTimer
    rcases List.mem_append.mp hTimer with hMem | hMem
    · exact hKeeps.oneShot timer hMem
    · cases List.mem_singleton.mp hMem
      exact fun _ _ => rfl
  given := by
    intro timer hTimer
    rcases List.mem_append.mp hTimer with hMem | hMem
    · exact Nat.lt_succ_of_lt (hKeeps.given timer hMem)
    · cases List.mem_singleton.mp hMem
      exact Nat.lt_succ_self _
  held_lt := fun number hNumber =>
    Nat.lt_succ_of_lt (hKeeps.held_lt number hNumber)
  rollover := by
    intro timer hTimer hHeld
    rcases List.mem_append.mp hTimer with hMem | hMem
    · exact hKeeps.rollover timer hMem hHeld
    · cases List.mem_singleton.mp hMem
      exact absurd (hKeeps.held_lt _ hHeld) (Nat.lt_irrefl _)

theorem periodic
    (now interval : Nat)
    (hKeeps : KeepsTimers timers held) :
    KeepsTimers (timers.periodic now interval .rollover).2
      (some timers.next) := by
  have hCases :
      ∀ timer ∈
          (timers.periodic now interval
            Alarm.rollover).2.pending,
        timer ∈ timers.pending ∨
          timer.id = timers.next ∧ timer.payload = .rollover := by
    intro timer hTimer
    rcases List.mem_append.mp hTimer with hMem | hMem
    · exact .inl hMem
    · split at hMem
      · cases hMem
      · cases List.mem_singleton.mp hMem
        exact .inr ⟨rfl, rfl⟩
  refine
    ⟨oneShot_periodic now interval hKeeps.oneShot, ?_, ?_, ?_⟩
  · intro timer hTimer
    rcases hCases timer hTimer with hMem | ⟨hNumber, _⟩
    · exact Nat.lt_succ_of_lt (hKeeps.given timer hMem)
    · exact hNumber ▸ Nat.lt_succ_self _
  · intro number hNumber
    cases hNumber
    exact Nat.lt_succ_self _
  · intro timer hTimer hHeld
    rcases hCases timer hTimer with hMem | ⟨_, hPayload⟩
    · have hNext : timers.next = timer.id := Option.some.inj hHeld
      exact
        absurd (hKeeps.given timer hMem)
          (hNext ▸ Nat.lt_irrefl _)
    · exact hPayload

theorem fire
    (now : Nat)
    (hKeeps : KeepsTimers timers held) :
    KeepsTimers (timers.fire now).2 held where
  oneShot := oneShot_fire timers now hKeeps.oneShot
  given := by
    intro timer hTimer
    rcases exists_of_mem_pending_fire hTimer with
      ⟨before, hBefore, hNumber, _⟩
    exact hNumber ▸ hKeeps.given before hBefore
  held_lt := hKeeps.held_lt
  rollover := by
    intro timer hTimer hHeld
    rcases exists_of_mem_pending_fire hTimer with
      ⟨before, hBefore, hNumber, hPayload⟩
    rw [← hPayload]
    exact hKeeps.rollover before hBefore (hNumber ▸ hHeld)

theorem cancel
    (number : Nat)
    (hKeeps : KeepsTimers timers held) :
    KeepsTimers (timers.cancel number) none where
  oneShot := fun timer hTimer =>
    hKeeps.oneShot timer
      ((cancel_sublist number timers).subset hTimer)
  given := fun timer hTimer =>
    hKeeps.given timer
      ((cancel_sublist number timers).subset hTimer)
  held_lt := fun _ hNumber => by cases hNumber
  rollover := fun _ _ hHeld => by cases hHeld

theorem fillTimers_cancel
    {number : Nat}
    (id : OrderId)
    (hKeeps : KeepsTimers timers (some number)) :
    fillTimers id (timers.cancel number).pending =
      fillTimers id timers.pending := by
  unfold Timers.cancel fillTimers
  dsimp only
  rw [List.filterMap_filter]
  apply List.filterMap_congr
  intro timer hTimer
  by_cases hNumber : timer.id = number
  · have hPayload :=
      hKeeps.rollover timer hTimer (congrArg some hNumber.symm)
    simp [hPayload, Alarm.fillOf?, Alarm.fill?]
  · simp [hNumber]

end KeepsTimers

namespace PaperVenue

/- The venue accepts every order that it is asked for. -/
theorem Reaction.accepted_eq
    {stamp : Stamp}
    {venue : PaperVenue}
    {envelope : Envelope TradingMessage}
    {step : VenueStep}
    (hReaction : Reaction stamp venue envelope step) :
    step.venue.accepted =
      venue.accepted + [envelope].countP isSubmission := by
  cases hReaction with
  | accepted command hPayload => simp [isSubmission, hPayload]
  | cancelled cancel hPayload =>
      simp [isSubmission, hPayload, unrest]
  | cancelRefused cancel reason hPayload =>
      simp [isSubmission, hPayload]
  | ignored hPayload =>
      have hNone : isSubmission envelope = false := by
        unfold isSubmission
        split
        · exact absurd ‹_› (hPayload _)
        · rfl
      simp [hNone]

end PaperVenue

namespace Desk

/-
  The books of a desk are in order, while `alarms` are still
  to ring and after the venue has taken `takings`.
-/
structure Tallies
    (settings : PaperSettings)
    (alarms : List Alarm)
    (takings : List (Nat × Envelope TradingMessage))
    (desk : Desk) : Prop where
  connected : desk.venue.connected = true
  settings_eq : desk.venue.settings = settings
  timers :
    KeepsTimers desk.timers (desk.throttler.bind (·.timer))
  indexed : desk.engine.blotter.IsIndexed
  phase :
    ∀ id, OrderPhase settings id (desk.docket alarms takings id)
  submitted :
    desk.engine.blotter.orders.countP Order.wasSubmitted =
      desk.venue.accepted +
        (desk.asFloor.outbox ++ desk.asFloor.waiting).countP
          isSubmission

variable {desk next : Desk} {settings : PaperSettings}
variable {alarms alarms' : List Alarm}
variable {takings : List (Nat × Envelope TradingMessage)}

namespace Tallies

theorem of_eq
    (hTallies : desk.Tallies settings alarms takings)
    (hVenue : next.venue = desk.venue)
    (hBlotter : next.engine.blotter = desk.engine.blotter)
    (hTimers :
      KeepsTimers next.timers (next.throttler.bind (·.timer)))
    (hLine :
      next.asFloor.outbox ++ next.asFloor.waiting =
        desk.asFloor.outbox ++ desk.asFloor.waiting)
    (hMove :
      ∀ id,
        DocketMove settings id (desk.docket alarms takings id)
          (next.docket alarms' takings id)) :
    next.Tallies settings alarms' takings where
  connected := hVenue ▸ hTallies.connected
  settings_eq := hVenue ▸ hTallies.settings_eq
  timers := hTimers
  indexed := hBlotter ▸ hTallies.indexed
  phase := fun id => (hTallies.phase id).move (hMove id)
  submitted := by
    rw [hBlotter, hVenue, hLine]
    exact hTallies.submitted

end Tallies

------------------------------------------------------------
-- The Engine's And The Venue's Turn
------------------------------------------------------------

theorem timer_foldl_command
    (commands : List (Envelope TradingMessage))
    (desk : Desk) :
    (commands.foldl command desk).throttler.bind (·.timer) =
      desk.throttler.bind (·.timer) := by
  induction commands generalizing desk with
  | nil => rfl
  | cons envelope commands ih =>
      rw [List.foldl_cons, ih]
      unfold command
      cases desk.throttler <;> rfl

/- The engine reacts to a message, and its commands join the line. -/
theorem exists_serve
    {envelope : Envelope TradingMessage}
    {rest : List (Envelope TradingMessage)}
    (hQueue : desk.toEngine = envelope :: rest) :
    ∃ stamp step,
      Engine.Reaction stamp desk.engine envelope step ∧
        desk.serve.engine = step.engine ∧
          desk.serve.venue = desk.venue ∧
            desk.serve.timers = desk.timers ∧
              desk.serve.throttler.bind (·.timer) =
                  desk.throttler.bind (·.timer) ∧
                desk.serve.asFloor.outbox ++
                    desk.serve.asFloor.waiting =
                  desk.asFloor.outbox ++ desk.asFloor.waiting ++
                    step.commands := by
  rcases Engine.exists_reaction
      (desk.stamps.next desk.now).1 desk.engine envelope with
    ⟨step, hHandle, hReaction⟩
  refine ⟨_, step, hReaction, ?_⟩
  rw [serve_eq hQueue hHandle]
  unfold followEngine
  rw [timer_foldl_command, asFloor_foldl_command,
    Floor.outbox_waiting_foldl_command]
  rcases foldl_command_eq step.commands _ with
    ⟨throttler, toVenue, hCommands⟩
  rw [hCommands]
  exact ⟨rfl, rfl, rfl, rfl, rfl⟩

theorem Tallies.serve
    (hTallies : desk.Tallies settings alarms takings)
    (hBookable : desk.Bookable .serve) :
    desk.serve.Tallies settings alarms takings := by
  cases hQueue : desk.toEngine with
  | nil =>
      unfold Desk.serve
      rw [hQueue]
      exact hTallies
  | cons envelope rest =>
      rcases exists_serve hQueue with
        ⟨stamp, step, hReaction, hEngine, hVenue, hTimers, hHeld,
          hLine⟩
      refine
        ⟨hVenue ▸ hTallies.connected,
          hVenue ▸ hTallies.settings_eq, ?_, ?_, ?_, ?_⟩
      · rw [hTimers, hHeld]
        exact hTallies.timers
      · rw [hEngine]
        exact hReaction.isIndexed hTallies.indexed
      · exact fun id =>
          (hTallies.phase id).move
            (docketMove_serve settings id hBookable)
      · have hBegun :
            ∀ id order,
              desk.engine.blotter.find? id = some order →
                order.history ≠ [] :=
          fun id order hOrder =>
            (hTallies.phase id).begun hOrder
        rw [hEngine, hVenue, hLine, List.countP_append,
          hReaction.countP_wasSubmitted hBegun,
          hTallies.submitted]
        omega

theorem Tallies.deliver
    (hTallies : desk.Tallies settings [] takings) :
    desk.deliver.Tallies settings []
      (takings ++ (desk.taking? .deliver).toList) := by
  have hPhase := fun id =>
    (hTallies.phase id).move
      (docketMove_deliver id hTallies.connected
        hTallies.settings_eq)
  cases hQueue : desk.toVenue with
  | nil =>
      unfold Desk.deliver taking?
      rw [hQueue]
      simpa using hTallies
  | cons envelope rest =>
      have hReaction :=
        PaperVenue.reaction_handle
          (desk.stamps.next desk.now).1 envelope
          hTallies.connected
      have hAccepted := hReaction.accepted_eq
      have hSubmitted := hTallies.submitted
      have hOutbox : desk.asFloor.outbox = envelope :: rest :=
        hQueue
      have hTaking :
          desk.taking? .deliver = some (desk.now, envelope) := by
        unfold taking?
        rw [hQueue]
        rfl
      rw [hTaking] at hPhase ⊢
      rw [deliver_eq hQueue] at hPhase ⊢
      refine
        ⟨hReaction.connected.trans hTallies.connected,
          hReaction.settings.trans hTallies.settings_eq, ?_,
          hTallies.indexed, hPhase, ?_⟩
      · unfold followVenue
        dsimp only
        split
        · exact hTallies.timers
        · exact hTallies.timers.once _ _ _
      · rw [hOutbox, List.cons_append, ← List.singleton_append,
          List.countP_append] at hSubmitted
        change _ = _ + (rest ++ desk.asFloor.waiting).countP _
        unfold followVenue
        dsimp only
        rw [hAccepted, hSubmitted]
        omega

------------------------------------------------------------
-- Timers And The Throttler
------------------------------------------------------------

theorem Tallies.ring
    {alarm : Alarm}
    (hTallies : desk.Tallies settings (alarm :: alarms) takings) :
    (desk.ring alarm).Tallies settings alarms takings := by
  have hMove := fun id =>
    @docketMove_ring desk alarms takings alarm settings id
      hTallies.connected
  cases alarm with
  | rollover =>
      unfold Desk.ring at hMove ⊢
      have hRest :
          desk.rollOver.venue = desk.venue ∧
            desk.rollOver.engine = desk.engine ∧
              desk.rollOver.timers = desk.timers ∧
                desk.rollOver.throttler.bind (·.timer) =
                  desk.throttler.bind (·.timer) := by
        unfold rollOver
        cases hThrottler : desk.throttler with
        | none => exact ⟨rfl, rfl, rfl, by rw [hThrottler]⟩
        | some throttler => exact ⟨rfl, rfl, rfl, rfl⟩
      rcases hRest with ⟨hVenue, hEngine, hTimers, hHeld⟩
      refine
        hTallies.of_eq hVenue (by rw [hEngine]) ?_
          (line_rollOver desk) hMove
      rw [hTimers, hHeld]
      exact hTallies.timers
  | fill pending =>
      rcases desk.venue.exists_settle
          (desk.stamps.next desk.now).1 pending with
        ⟨resting, hVenue, hPending⟩
      have hPhase := fun id => (hTallies.phase id).move (hMove id)
      unfold Desk.ring followVenue at hPhase ⊢
      dsimp only at hPhase ⊢
      rw [hPending, hVenue] at hPhase ⊢
      exact
        ⟨hTallies.connected, hTallies.settings_eq,
          hTallies.timers, hTallies.indexed, hPhase,
          hTallies.submitted⟩

/- All alarms that ring are dealt with. -/
theorem Tallies.ringAll
    (hTallies : desk.Tallies settings alarms takings) :
    (alarms.foldl Desk.ring desk).Tallies settings [] takings := by
  induction alarms generalizing desk with
  | nil => exact hTallies
  | cons alarm alarms ih => exact ih hTallies.ring

theorem Tallies.ringDue
    {later : Nat}
    (hTallies : desk.Tallies settings [] takings)
    (hLater : desk.now ≤ later) :
    ({ desk with now := later } : Desk).ringDue.Tallies settings
      [] takings := by
  apply Tallies.ringAll
  refine
    hTallies.of_eq rfl rfl (hTallies.timers.fire later) rfl ?_
  exact fun id =>
    docketMove_fire settings id hTallies.timers.oneShot hLater

theorem Tallies.startWindow
    (hTallies : desk.Tallies settings alarms takings) :
    desk.startWindow.Tallies settings alarms takings := by
  have hRest :
      desk.startWindow.venue = desk.venue ∧
        desk.startWindow.engine = desk.engine := by
    unfold Desk.startWindow
    split <;> exact ⟨rfl, rfl⟩
  refine
    hTallies.of_eq hRest.1 (by rw [hRest.2]) ?_
      (line_startWindow desk) ?_
  · rcases desk.timers_startWindow with
      ⟨hTimers, hHeld⟩ | ⟨interval, hTimers, hHeld⟩
    · rw [hTimers, hHeld]
      exact hTallies.timers
    · rw [hTimers, hHeld]
      exact hTallies.timers.periodic _ _
  · intro id
    rw [docket_startWindow]
    exact .idle

theorem Tallies.stopThrottler
    (hTallies : desk.Tallies settings alarms takings) :
    desk.stopThrottler.Tallies settings alarms takings := by
  have hRest :
      desk.stopThrottler.venue = desk.venue ∧
        desk.stopThrottler.engine = desk.engine ∧
          desk.stopThrottler.now = desk.now ∧
            desk.stopThrottler.toEngine = desk.toEngine := by
    unfold Desk.stopThrottler
    split <;> exact ⟨rfl, rfl, rfl, rfl⟩
  rcases hRest with ⟨hVenue, hEngine, hNow, hQueue⟩
  have hLine := line_stopThrottler desk
  have hKeeps := hTallies.timers
  rcases desk.timers_stopThrottler with
    ⟨hNone, ⟨hHeld, hTimers⟩ | ⟨number, hHeld, hTimers⟩⟩
  · rw [hHeld] at hKeeps
    refine
      hTallies.of_eq hVenue (by rw [hEngine])
        (by rw [hTimers, hNone]; exact hKeeps) hLine ?_
    intro id
    rw [docket_of_line hNow hEngine hVenue hQueue
      (by rw [hTimers]) hLine]
    exact .idle
  · rw [hHeld] at hKeeps
    refine
      hTallies.of_eq hVenue (by rw [hEngine])
        (by rw [hTimers, hNone]; exact hKeeps.cancel number)
        hLine ?_
    intro id
    rw [docket_of_line hNow hEngine hVenue hQueue
      (by rw [hTimers]; exact hKeeps.fillTimers_cancel id) hLine]
    exact .idle

------------------------------------------------------------
-- Runs
------------------------------------------------------------

/- The books stay in order in every beat. -/
theorem Tallies.beat
    (hTallies : desk.Tallies settings [] takings)
    (beat : Beat)
    (hBookable : desk.Bookable beat) :
    (desk.beat beat).Tallies settings []
      (takings ++ (desk.taking? beat).toList) := by
  by_cases hDeliver : beat = .deliver
  · subst hDeliver
    exact hTallies.deliver
  have hNone : desk.taking? beat = none := by
    unfold taking?
    split
    · exact absurd rfl hDeliver
    · rfl
  rw [hNone, Option.toList_none, List.append_nil]
  cases beat with
  | deliver => exact absurd rfl hDeliver
  | ask request =>
      refine
        hTallies.of_eq rfl rfl hTallies.timers rfl fun id => ?_
      rw [Desk.beat, docket_ask]
      exact .idle
  | serve => exact hTallies.serve hBookable
  | fire => exact hTallies.ringDue (Nat.le_refl _)
  | wait ms =>
      exact
        hTallies.of_eq rfl rfl hTallies.timers rfl fun id =>
          docketMove_wait settings id ms
  | jump ms => exact hTallies.ringDue (Nat.le_add_right _ _)
  | pause reason =>
      exact
        hTallies.of_eq rfl rfl hTallies.timers rfl fun _ => .idle
  | resume =>
      exact
        hTallies.of_eq rfl rfl hTallies.timers rfl fun _ => .idle
  | start => exact hTallies.startWindow
  | stop => exact hTallies.stopThrottler

/- The books stay in order, whatever happens. -/
theorem Tallies.live
    {beats : List Beat}
    (hTallies : desk.Tallies settings [] takings)
    (hBookable : desk.AllBookable beats) :
    (desk.live beats).Tallies settings []
      (takings ++ desk.takings beats) := by
  induction beats generalizing desk takings with
  | nil =>
      rw [Desk.takings, List.append_nil]
      exact hTallies
  | cons beat beats ih =>
      have hRest := ih (hTallies.beat beat hBookable.1) hBookable.2
      rw [List.append_assoc] at hRest
      exact hRest

theorem tallies_new
    {throttler : Option (Throttler (Envelope TradingMessage))}
    (gate : RiskGate)
    (settings : PaperSettings)
    (stamps : Stamps)
    (hFresh :
      ∀ t ∈ throttler,
        ∃ name intervalMs limit,
          Throttler.new name intervalMs limit = .ok t) :
    (Desk.new gate settings throttler stamps).Tallies settings []
      [] := by
  have hIdle :
      throttler.bind (·.timer) = none ∧
        (Desk.new gate settings throttler
          stamps).asFloor.waiting = [] := by
    cases throttler with
    | none => exact ⟨rfl, rfl⟩
    | some t =>
        rcases hFresh t rfl with ⟨name, intervalMs, limit, hNew⟩
        rcases Throttler.eq_of_new hNew with ⟨_, _, rfl⟩
        exact ⟨rfl, rfl⟩
  refine ⟨rfl, rfl, ?_, .nil, ?_, ?_⟩
  · change KeepsTimers Timers.empty (throttler.bind (·.timer))
    rw [hIdle.1]
    exact
      ⟨fun _ hTimer => (by cases hTimer),
        fun _ hTimer => (by cases hTimer),
        fun _ hNumber => (by cases hNumber),
        fun _ hTimer => (by cases hTimer)⟩
  · intro id
    refine .unknown rfl ⟨?_, rfl, rfl, rfl, rfl, rfl⟩
    unfold docket
    rw [hIdle.2]
    rfl
  · rw [hIdle.2]
    rfl

end Desk

end OrderDesk
