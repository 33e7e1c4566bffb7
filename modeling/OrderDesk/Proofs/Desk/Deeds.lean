import OrderDesk.Proofs.Desk.Docket

/-
  This file proves that whatever is done to a desk happens
  beat by beat.

  Two firings are enough for all that happens at an instant.
  The first leaves only fills that are due at once, which
  follow on commands that the throttler let go, and the
  reports of those ask nothing of the venue.

  Key definitions include:
    * `Desk.LeadsTo`
    * `Desk.Follows`
    * `Desk.IsStill`

  Key theorems include:
    * `Desk.leadsTo_settle`
    * `Desk.isStill_settle`
    * `Desk.leadsTo_perform`
    * `Desk.exists_live_eq_undergo`
-/

namespace OrderDesk

namespace Desk

variable {desk next last : Desk}
variable {envelope : Envelope TradingMessage}

------------------------------------------------------------
-- Beat By Beat
------------------------------------------------------------

/- Some beats lead from one desk to another. -/
def LeadsTo
    (desk next : Desk) : Prop :=
  ∃ beats, desk.live beats = next

theorem LeadsTo.refl
    (desk : Desk) :
    desk.LeadsTo desk :=
  ⟨[], rfl⟩

theorem LeadsTo.beat
    (desk : Desk)
    (beat : Beat) :
    desk.LeadsTo (desk.beat beat) :=
  ⟨[beat], rfl⟩

/- Beats follow on beats. -/
theorem LeadsTo.trans
    (hFirst : desk.LeadsTo next)
    (hSecond : next.LeadsTo last) :
    desk.LeadsTo last := by
  rcases hFirst with ⟨beats, rfl⟩
  rcases hSecond with ⟨more, rfl⟩
  exact ⟨beats ++ more, List.foldl_append⟩

------------------------------------------------------------
-- Queues
------------------------------------------------------------

/- The desk, with other messages that wait for the engine. -/
def awaiting
    (desk : Desk)
    (queue : List (Envelope TradingMessage)) : Desk :=
  { desk with toEngine := queue }

/- The desk, with other messages that wait for the venue. -/
def sending
    (desk : Desk)
    (queue : List (Envelope TradingMessage)) : Desk :=
  { desk with toVenue := queue }

/- Commands do not look at what waits for the engine. -/
theorem foldl_command_awaiting
    (commands queue : List (Envelope TradingMessage))
    (desk : Desk) :
    commands.foldl command (desk.awaiting queue) =
      (commands.foldl command desk).awaiting queue := by
  induction commands generalizing desk with
  | nil => rfl
  | cons envelope commands ih =>
      have hCommand :
          (desk.awaiting queue).command envelope =
            (desk.command envelope).awaiting queue := by
        unfold command awaiting
        dsimp only
        cases desk.throttler <;> rfl
      rw [List.foldl_cons, hCommand, ih, List.foldl_cons]

/- The engine does not look at what waits behind its message. -/
theorem deliverToEngine_awaiting
    (desk : Desk)
    (queue : List (Envelope TradingMessage))
    (envelope : Envelope TradingMessage) :
    (desk.awaiting queue).deliverToEngine envelope =
      (desk.deliverToEngine envelope).awaiting queue := by
  have hFollow :
      ∀ (desk : Desk) step,
        (desk.awaiting queue).followEngine step =
          (desk.followEngine step).awaiting queue :=
    fun desk step =>
      foldl_command_awaiting step.commands queue
        { desk with
          engine := step.engine
          published :=
            desk.published ++
              step.events.map fun envelope => (desk.now, envelope)
          notices := desk.notices ++ step.notices }
  rcases Engine.exists_reaction
      (desk.stamps.next desk.now).1 desk.engine envelope with
    ⟨step, hHandle, _⟩
  have hBusy :=
    @deliverToEngine_eq (desk.awaiting queue) envelope step
      hHandle
  rw [hBusy, deliverToEngine_eq hHandle]
  exact
    hFollow { desk with stamps := (desk.stamps.next desk.now).2 }
      step

/- The venue does not look at what waits behind its message. -/
theorem deliverToVenue_sending
    (desk : Desk)
    (queue : List (Envelope TradingMessage))
    (envelope : Envelope TradingMessage) :
    (desk.sending queue).deliverToVenue envelope =
      (desk.deliverToVenue envelope).sending queue :=
  rfl

/-
  A queue is emptied one by one if whoever takes the first
  message does not look at those behind it.
-/
theorem leadsTo_foldl
    {take : Desk → Envelope TradingMessage → Desk}
    {hold : Desk → List (Envelope TradingMessage) → Desk}
    (beat : Beat)
    (hBeat :
      ∀ desk envelope queue,
        (hold desk (envelope :: queue)).beat beat =
          take (hold desk queue) envelope)
    (hTake :
      ∀ desk queue envelope,
        take (hold desk queue) envelope =
          hold (take desk envelope) queue)
    (queue : List (Envelope TradingMessage))
    (desk : Desk) :
    (hold desk queue).LeadsTo
      (queue.foldl take (hold desk [])) := by
  induction queue generalizing desk with
  | nil => exact .refl _
  | cons envelope queue ih =>
      have hRest := ih (take desk envelope)
      rw [← hTake, ← hTake, ← hBeat] at hRest
      exact (LeadsTo.beat _ beat).trans hRest

theorem leadsTo_drainEngine
    (desk : Desk) :
    desk.LeadsTo desk.drainEngine :=
  leadsTo_foldl .serve (fun _ _ _ => rfl) deliverToEngine_awaiting
    desk.toEngine desk

theorem leadsTo_drainVenue
    (desk : Desk) :
    desk.LeadsTo desk.drainVenue :=
  leadsTo_foldl .deliver (fun _ _ _ => rfl) deliverToVenue_sending
    desk.toVenue desk

theorem leadsTo_drain
    (desk : Desk) :
    desk.LeadsTo desk.drain :=
  (leadsTo_drainEngine desk).trans
    ((leadsTo_drainVenue _).trans (leadsTo_drainEngine _))

theorem leadsTo_fire
    (desk : Desk) :
    desk.LeadsTo desk.fire :=
  (LeadsTo.beat desk .fire).trans (leadsTo_drain _)

/- Everything happens that can happen now. -/
theorem leadsTo_settle
    (desk : Desk) :
    desk.LeadsTo desk.settle :=
  (leadsTo_drain desk).trans
    ((leadsTo_fire _).trans (leadsTo_fire _))

------------------------------------------------------------
-- Turns
------------------------------------------------------------

/- Messages that ask for nothing. -/
def AskNothing
    (envelopes : List (Envelope TradingMessage)) : Prop :=
  ∀ envelope ∈ envelopes, isRequest envelope = false

/-
  A desk can come from another one while no timer fires: no
  time has passed, the venue still reports to somebody, and
  new timers are set for single fills only.
-/
structure Follows
    (desk next : Desk) : Prop where
  now_eq : next.now = desk.now
  connected :
    desk.venue.connected = true → next.venue.connected = true
  timers :
    ∀ timer ∈ next.timers.pending,
      timer ∈ desk.timers.pending ∨
        timer.interval = none ∧
          ∃ fill, timer.payload = .fill fill

/- A desk follows if neither its venue nor its timers changed. -/
theorem Follows.of_eq
    (hNow : next.now = desk.now)
    (hVenue : next.venue = desk.venue)
    (hTimers : next.timers = desk.timers) :
    desk.Follows next where
  now_eq := hNow
  connected := fun hConnected => hVenue ▸ hConnected
  timers := fun _ hTimer => .inl (hTimers ▸ hTimer)

theorem Follows.trans
    (hFirst : desk.Follows next)
    (hSecond : next.Follows last) :
    desk.Follows last where
  now_eq := hSecond.now_eq.trans hFirst.now_eq
  connected := fun hConnected =>
    hSecond.connected (hFirst.connected hConnected)
  timers := fun timer hTimer =>
    (hSecond.timers timer hTimer).elim (hFirst.timers timer) .inr

theorem deliverToEngine_keeps
    (desk : Desk)
    (envelope : Envelope TradingMessage) :
    (desk.deliverToEngine envelope).now = desk.now ∧
      (desk.deliverToEngine envelope).venue = desk.venue ∧
        (desk.deliverToEngine envelope).timers = desk.timers ∧
          (isRequest envelope = false →
            (desk.deliverToEngine envelope).toVenue =
              desk.toVenue) := by
  rcases Engine.exists_reaction
      (desk.stamps.next desk.now).1 desk.engine envelope with
    ⟨step, hHandle, hReaction⟩
  have hKept :
      ∀ (commands : List (Envelope TradingMessage)) (start : Desk),
        (commands.foldl command start).now = start.now ∧
          (commands.foldl command start).venue = start.venue ∧
            (commands.foldl command start).timers =
              start.timers := by
    intro commands start
    rcases foldl_command_eq commands start with
      ⟨_, _, hCommands⟩
    rw [hCommands]
    exact ⟨rfl, rfl, rfl⟩
  rw [deliverToEngine_eq hHandle]
  unfold followEngine
  rcases hKept step.commands _ with ⟨hNow, hVenue, hTimers⟩
  refine ⟨hNow, hVenue, hTimers, ?_⟩
  intro hReport
  rcases hReaction.commands_cases with hNil | ⟨_, hRequest⟩
  · rw [hNil]
    rfl
  · cases hReport.symm.trans hRequest

theorem foldl_deliverToEngine_keeps
    (queue : List (Envelope TradingMessage))
    (desk : Desk) :
    (queue.foldl deliverToEngine desk).now = desk.now ∧
      (queue.foldl deliverToEngine desk).venue = desk.venue ∧
        (queue.foldl deliverToEngine desk).timers =
            desk.timers ∧
          (queue.foldl deliverToEngine desk).toEngine =
              desk.toEngine ∧
            (AskNothing queue →
              (queue.foldl deliverToEngine desk).toVenue =
                desk.toVenue) := by
  induction queue generalizing desk with
  | nil => exact ⟨rfl, rfl, rfl, rfl, fun _ => rfl⟩
  | cons envelope queue ih =>
      rcases desk.deliverToEngine_keeps envelope with
        ⟨hNow, hVenue, hTimers, hToVenue⟩
      have hToEngine :=
        congrArg toEngine
          (desk.deliverToEngine_awaiting desk.toEngine envelope)
      rcases ih (desk.deliverToEngine envelope) with
        ⟨hNow', hVenue', hTimers', hToEngine', hToVenue'⟩
      refine
        ⟨hNow'.trans hNow, hVenue'.trans hVenue,
          hTimers'.trans hTimers, hToEngine'.trans hToEngine, ?_⟩
      intro hReports
      rcases List.forall_mem_cons.mp hReports with
        ⟨hReport, hRest⟩
      exact (hToVenue' hRest).trans (hToVenue hReport)

/- The venue's turn sets a timer for a fill, if any. -/
theorem follows_deliverToVenue
    (desk : Desk)
    (envelope : Envelope TradingMessage) :
    desk.Follows (desk.deliverToVenue envelope) where
  now_eq := rfl
  connected := fun hConnected =>
    (PaperVenue.reaction_handle (desk.stamps.next desk.now).1
      envelope hConnected).connected.trans hConnected
  timers := by
    intro timer hTimer
    unfold deliverToVenue followVenue at hTimer
    dsimp only at hTimer
    split at hTimer
    · exact .inl hTimer
    · rcases List.mem_append.mp hTimer with hMem | hMem
      · exact .inl hMem
      · cases List.mem_singleton.mp hMem
        exact .inr ⟨rfl, _, rfl⟩

/- What the venue says at once asks for nothing. -/
theorem askNothing_deliverToVenue
    (envelope : Envelope TradingMessage)
    (hConnected : desk.venue.connected = true)
    (hReports : AskNothing desk.toEngine) :
    AskNothing (desk.deliverToVenue envelope).toEngine := by
  have hReaction :=
    PaperVenue.reaction_handle (desk.stamps.next desk.now).1
      envelope hConnected
  intro report hReport
  rcases List.mem_append.mp hReport with hMem | hMem
  · exact hReports report hMem
  · rcases hReaction.payload_cases hMem with
      ⟨event, hPayload, _⟩ | ⟨rejection, hPayload⟩
    · simp [isRequest, hPayload]
    · simp [isRequest, hPayload]

theorem foldl_deliverToVenue_keeps
    (queue : List (Envelope TradingMessage))
    (desk : Desk) :
    desk.Follows (queue.foldl deliverToVenue desk) ∧
      (queue.foldl deliverToVenue desk).toVenue = desk.toVenue ∧
        (desk.venue.connected = true →
          AskNothing desk.toEngine →
            AskNothing
              (queue.foldl deliverToVenue desk).toEngine) := by
  induction queue generalizing desk with
  | nil =>
      exact
        ⟨.of_eq rfl rfl rfl, rfl, fun _ hReports => hReports⟩
  | cons envelope queue ih =>
      have hFollows := desk.follows_deliverToVenue envelope
      rcases ih (desk.deliverToVenue envelope) with
        ⟨hRest, hToVenue, hToEngine⟩
      refine ⟨hFollows.trans hRest, hToVenue, ?_⟩
      intro hConnected hReports
      exact
        hToEngine (hFollows.connected hConnected)
          (askNothing_deliverToVenue envelope hConnected hReports)

/-
  An alarm sets no timer. A fill sends nothing to the venue,
  and what is reported of it asks for nothing.
-/
theorem ring_keeps
    (desk : Desk)
    (alarm : Alarm) :
    desk.Follows (desk.ring alarm) ∧
      (desk.ring alarm).timers = desk.timers ∧
        (alarm ≠ .rollover →
            (desk.ring alarm).toVenue = desk.toVenue) ∧
          (AskNothing desk.toEngine →
            AskNothing (desk.ring alarm).toEngine) := by
  cases alarm with
  | rollover =>
      unfold ring rollOver
      dsimp only
      split
      · exact
          ⟨.of_eq rfl rfl rfl, rfl, fun _ => rfl,
            fun hReports => hReports⟩
      · exact
          ⟨.of_eq rfl rfl rfl, rfl, fun hNot => absurd rfl hNot,
            fun hReports => hReports⟩
  | fill pending =>
      unfold ring PaperVenue.settle followVenue
      dsimp only
      split
      · refine ⟨⟨rfl, id, fun _ => .inl⟩, rfl, fun _ => rfl, ?_⟩
        intro hReports
        unfold AskNothing
        rw [List.forall_mem_append]
        refine ⟨hReports, ?_⟩
        split <;> simp [isRequest, Envelope.event, Envelope.make]
      · refine
          ⟨.of_eq rfl rfl rfl, rfl, fun _ => rfl, ?_⟩
        intro hReports
        simpa using hReports

theorem foldl_ring_keeps
    (alarms : List Alarm)
    (desk : Desk) :
    desk.Follows (alarms.foldl ring desk) ∧
      (alarms.foldl ring desk).timers = desk.timers ∧
        ((∀ alarm ∈ alarms, alarm ≠ .rollover) →
            (alarms.foldl ring desk).toVenue = desk.toVenue) ∧
          (AskNothing desk.toEngine →
            AskNothing (alarms.foldl ring desk).toEngine) := by
  induction alarms generalizing desk with
  | nil =>
      exact
        ⟨.of_eq rfl rfl rfl, rfl, fun _ => rfl,
          fun hReports => hReports⟩
  | cons alarm alarms ih =>
      rcases desk.ring_keeps alarm with
        ⟨hFollows, hTimers, hToVenue, hReports⟩
      rcases ih (desk.ring alarm) with
        ⟨hFollows', hTimers', hToVenue', hReports'⟩
      refine
        ⟨hFollows.trans hFollows', hTimers'.trans hTimers, ?_,
          fun hQuiet => hReports' (hReports hQuiet)⟩
      intro hFills
      rcases List.forall_mem_cons.mp hFills with ⟨hFirst, hRest⟩
      exact (hToVenue' hRest).trans (hToVenue hFirst)

------------------------------------------------------------
-- Stillness
------------------------------------------------------------

/-
  The venue of a desk reports to somebody, and no timer comes
  back at the time at which it has fired.
-/
structure IsSteady
    (desk : Desk) : Prop where
  connected : desk.venue.connected = true
  interval :
    ∀ timer ∈ desk.timers.pending, timer.interval ≠ some 0

/- Nothing is due but fills. -/
def DueAreFills
    (desk : Desk) : Prop :=
  ∀ timer ∈ desk.timers.pending,
    timer.deadline ≤ desk.now → timer.payload ≠ .rollover

/- Nothing is left to do at a desk before its next deadline. -/
structure IsStill
    (desk : Desk) : Prop extends desk.IsSteady where
  toEngine : desk.toEngine = []
  toVenue : desk.toVenue = []
  ahead :
    ∀ timer ∈ desk.timers.pending, desk.now < timer.deadline

/- A steady desk stays steady while no timer fires. -/
theorem IsSteady.follow
    (hSteady : desk.IsSteady)
    (hFollows : desk.Follows next) :
    next.IsSteady where
  connected := hFollows.connected hSteady.connected
  interval := by
    intro timer hTimer
    rcases hFollows.timers timer hTimer with hOld | ⟨hOnce, _⟩
    · exact hSteady.interval timer hOld
    · simp [hOnce]

/- Turns make nothing due but fills. -/
theorem DueAreFills.follow
    (hFills : desk.DueAreFills)
    (hFollows : desk.Follows next) :
    next.DueAreFills := by
  intro timer hTimer hDue
  rw [hFollows.now_eq] at hDue
  rcases hFollows.timers timer hTimer with
    hOld | ⟨_, fill, hPayload⟩
  · exact hFills timer hOld hDue
  · rw [hPayload]
    exact Alarm.noConfusion

theorem drainEngine_keeps
    (desk : Desk) :
    desk.Follows desk.drainEngine ∧
      desk.drainEngine.timers = desk.timers ∧
        desk.drainEngine.toEngine = [] ∧
          (AskNothing desk.toEngine →
            desk.drainEngine.toVenue = desk.toVenue) := by
  rcases foldl_deliverToEngine_keeps desk.toEngine
      { desk with toEngine := [] } with
    ⟨hNow, hVenue, hTimers, hToEngine, hToVenue⟩
  exact
    ⟨.of_eq hNow hVenue hTimers, hTimers, hToEngine, hToVenue⟩

theorem drainVenue_keeps
    (desk : Desk) :
    desk.Follows desk.drainVenue ∧
      desk.drainVenue.toVenue = [] ∧
        (desk.venue.connected = true →
          AskNothing desk.toEngine →
            AskNothing desk.drainVenue.toEngine) := by
  rcases foldl_deliverToVenue_keeps desk.toVenue
      { desk with toVenue := [] } with
    ⟨⟨hNow, hConnected, hTimers⟩, hToVenue, hToEngine⟩
  exact ⟨⟨hNow, hConnected, hTimers⟩, hToVenue, hToEngine⟩

/- When all messages have arrived, none is on its way. -/
theorem drain_keeps
    (hConnected : desk.venue.connected = true) :
    desk.Follows desk.drain ∧
      desk.drain.toEngine = [] ∧ desk.drain.toVenue = [] := by
  rcases desk.drainEngine_keeps with ⟨hFirst, _, hServed, _⟩
  rcases desk.drainEngine.drainVenue_keeps with
    ⟨hSecond, hDelivered, hReports⟩
  rcases desk.drainEngine.drainVenue.drainEngine_keeps with
    ⟨hThird, _, hToEngine, hToVenue⟩
  have hQuiet : AskNothing desk.drainEngine.toEngine := by
    rw [hServed]
    exact List.forall_mem_nil _
  have hReported := hReports (hFirst.connected hConnected) hQuiet
  exact
    ⟨hFirst.trans (hSecond.trans hThird), hToEngine,
      (hToVenue hReported).trans hDelivered⟩

theorem timers_drain
    (hReports : AskNothing desk.toEngine)
    (hToVenue : desk.toVenue = []) :
    desk.drain.timers = desk.timers := by
  rcases desk.drainEngine_keeps with
    ⟨_, hTimers, _, hNone⟩
  have hIdle :
      desk.drainEngine.drainVenue.timers =
        desk.drainEngine.timers := by
    unfold drainVenue
    rw [hNone hReports, hToVenue]
    rfl
  rcases desk.drainEngine.drainVenue.drainEngine_keeps with
    ⟨_, hLast, _⟩
  exact hLast.trans (hIdle.trans hTimers)

/- When the timers of a steady desk have fired, none is due. -/
theorem ringDue_keeps
    (hSteady : desk.IsSteady) :
    desk.ringDue.IsSteady ∧
      desk.ringDue.now = desk.now ∧
        ∀ timer ∈ desk.ringDue.timers.pending,
          desk.now < timer.deadline := by
  rcases foldl_ring_keeps (desk.timers.fire desk.now).1
      { desk with timers := (desk.timers.fire desk.now).2 } with
    ⟨hFollows, hTimers, _, _⟩
  have hAfter :
      ∀ timer ∈ (desk.timers.fire desk.now).2.pending,
        desk.now < timer.deadline ∧ timer.interval ≠ some 0 := by
    intro timer hTimer
    rcases pending_fire_cases hTimer with
      ⟨hKept, hAhead⟩ | ⟨before, hBefore, hDue, hNext⟩
    · exact ⟨hAhead, hSteady.interval timer hKept⟩
    · have hLasts := hSteady.interval before hBefore
      refine ⟨lt_deadline_of_renewed hLasts hDue hNext, ?_⟩
      rw [(renewed_eq_some hNext).2.1]
      exact hLasts
  refine ⟨?_, hFollows.now_eq, ?_⟩
  · apply IsSteady.follow _ hFollows
    exact
      ⟨hSteady.connected, fun timer hTimer =>
        (hAfter timer hTimer).2⟩
  · have hSet :
        desk.ringDue.timers = (desk.timers.fire desk.now).2 :=
      hTimers
    intro timer hTimer
    rw [hSet] at hTimer
    exact (hAfter timer hTimer).1

/- When only fills fire, nothing is sent to the venue. -/
theorem ringDue_of_fills
    (hFills : desk.DueAreFills) :
    desk.ringDue.toVenue = desk.toVenue ∧
      (AskNothing desk.toEngine →
        AskNothing desk.ringDue.toEngine) := by
  rcases foldl_ring_keeps (desk.timers.fire desk.now).1
      { desk with timers := (desk.timers.fire desk.now).2 } with
    ⟨_, _, hToVenue, hReports⟩
  refine ⟨hToVenue ?_, hReports⟩
  intro alarm hAlarm
  rcases exists_of_mem_fire hAlarm with
    ⟨timer, hTimer, hDue, rfl⟩
  exact hFills timer hTimer hDue

/- After one firing only fills are due, and no message waits. -/
theorem dueAreFills_fire
    (hSteady : desk.IsSteady) :
    desk.fire.IsSteady ∧
      desk.fire.now = desk.now ∧
        desk.fire.DueAreFills ∧
          desk.fire.toEngine = [] ∧ desk.fire.toVenue = [] := by
  rcases ringDue_keeps hSteady with ⟨hRung, hNow, hAhead⟩
  have hFills : desk.ringDue.DueAreFills := by
    intro timer hTimer hDue
    rw [hNow] at hDue
    exact absurd (hAhead timer hTimer) (Nat.not_lt_of_ge hDue)
  rcases drain_keeps hRung.connected with
    ⟨hFollows, hToEngine, hToVenue⟩
  exact
    ⟨hRung.follow hFollows, hFollows.now_eq.trans hNow,
      hFills.follow hFollows, hToEngine, hToVenue⟩

/- After the firing of fills nothing is left to do. -/
theorem isStill_fire
    (hSteady : desk.IsSteady)
    (hFills : desk.DueAreFills)
    (hToEngine : desk.toEngine = [])
    (hToVenue : desk.toVenue = []) :
    desk.fire.IsStill ∧ desk.fire.now = desk.now := by
  rcases ringDue_keeps hSteady with ⟨hRung, hNow, hAhead⟩
  rcases ringDue_of_fills hFills with ⟨hNoCommand, hReports⟩
  have hQuiet : AskNothing desk.toEngine := by
    rw [hToEngine]
    exact List.forall_mem_nil _
  have hTimers :=
    timers_drain (hReports hQuiet) (hNoCommand.trans hToVenue)
  rcases drain_keeps hRung.connected with
    ⟨hFollows, hServed, hDelivered⟩
  have hSame : desk.ringDue.drain.now = desk.now :=
    hFollows.now_eq.trans hNow
  change desk.ringDue.drain.IsStill ∧ _
  refine
    ⟨{ hRung.follow hFollows with
        toEngine := hServed
        toVenue := hDelivered
        ahead := ?_ },
      hSame⟩
  intro timer hTimer
  rw [hTimers] at hTimer
  rw [hSame]
  exact hAhead timer hTimer

/-
  A desk is still once everything has happened that can
  happen now: the first firing leaves nothing due but fills,
  and the second leaves nothing due.
-/
theorem isStill_settle
    (hSteady : desk.IsSteady) :
    desk.settle.IsStill ∧ desk.settle.now = desk.now := by
  rcases drain_keeps hSteady.connected with ⟨hFollows, _, _⟩
  rcases dueAreFills_fire (hSteady.follow hFollows) with
    ⟨hFired, hNow, hFills, hToEngine, hToVenue⟩
  rcases isStill_fire hFired hFills hToEngine hToVenue with
    ⟨hStill, hLast⟩
  exact ⟨hStill, hLast.trans (hNow.trans hFollows.now_eq)⟩

------------------------------------------------------------
-- Deeds
------------------------------------------------------------

theorem leadsTo_wait
    {time : Nat}
    (hTime : desk.now ≤ time)
    (hWithin :
      ∀ deadline ∈ desk.timers.deadline?, time ≤ deadline) :
    desk.LeadsTo { desk with now := time } := by
  have hAfter : desk.timeAfter (time - desk.now) = time := by
    unfold timeAfter
    cases hDeadline : desk.timers.deadline? with
    | none => exact Nat.add_sub_cancel' hTime
    | some deadline =>
        have hLe := hWithin deadline hDeadline
        dsimp only
        omega
  refine ⟨[.wait (time - desk.now)], ?_⟩
  change { desk with now := desk.timeAfter _ } = _
  rw [hAfter]

/- Nothing is left to do before the next deadline at a later time. -/
theorem IsStill.wait
    {time : Nat}
    (hStill : desk.IsStill)
    (hWithin :
      ∀ deadline ∈ desk.timers.deadline?, time < deadline) :
    { desk with now := time }.IsStill where
  connected := hStill.connected
  interval := hStill.interval
  toEngine := hStill.toEngine
  toVenue := hStill.toVenue
  ahead := lt_deadline?_iff.mp hWithin

/- A still desk is still again when it was looked at. -/
theorem isStill_wake
    (hStill : desk.IsStill)
    (now : Nat) :
    (desk.wake now).IsStill ∧ (desk.wake now).now = now := by
  have hSteady : { desk with now := now }.IsSteady :=
    ⟨hStill.connected, hStill.interval⟩
  exact isStill_settle hSteady

/- A still desk goes from deadline to deadline beat by beat. -/
theorem leadsTo_advance
    (hStill : desk.IsStill)
    (ms : Nat) :
    desk.LeadsTo (desk.advance ms) ∧ (desk.advance ms).IsStill := by
  refine
    Timed.advance_induction
      (fun now (next : Desk) =>
        next.now = now ∧ next.IsStill ∧ desk.LeadsTo next)
      (fun last : Desk =>
        desk.LeadsTo { last with now := desk.now + ms } ∧
          IsStill { last with now := desk.now + ms })
      ?_ ?_ (Nat.le_add_right _ ms) ⟨rfl, hStill, .refl desk⟩
  · rintro _ next deadline ⟨rfl, hNext, hLeads⟩ hLater hDeadline
    rcases isStill_wake hNext deadline with ⟨hLast, hNow⟩
    have hWait : next.LeadsTo { next with now := deadline } := by
      apply leadsTo_wait (Nat.le_of_lt hLater)
      intro other hOther
      cases hDeadline.symm.trans hOther
      exact Nat.le_refl _
    have hWake : next.LeadsTo (next.wake deadline) :=
      hWait.trans (leadsTo_settle _)
    dsimp only [timed]
    exact ⟨hNow, hLast, hLeads.trans hWake⟩
  · rintro _ next ⟨rfl, hNext, hLeads⟩ hLater hRest
    have hWithin :
        ∀ deadline ∈ next.timers.deadline?,
          desk.now + ms < deadline := by
      intro deadline hDeadline
      have hAhead := lt_deadline?_iff.mpr hNext.ahead
      exact hRest deadline hDeadline (hAhead deadline hDeadline)
    have hWait := leadsTo_wait hLater fun deadline hDeadline =>
      Nat.le_of_lt (hWithin deadline hDeadline)
    exact ⟨hLeads.trans hWait, hNext.wait hWithin⟩

theorem drain_of_nil
    (hToEngine : desk.toEngine = [])
    (hToVenue : desk.toVenue = []) :
    desk.drain = desk := by
  have hEngine : desk.drainEngine = desk := by
    unfold drainEngine
    rw [hToEngine, List.foldl_nil, ← hToEngine]
  have hVenue : desk.drainVenue = desk := by
    unfold drainVenue
    rw [hToVenue, List.foldl_nil, ← hToVenue]
  unfold drain
  rw [hEngine, hVenue, hEngine]

theorem leadsTo_jump
    (hStill : desk.IsStill)
    (ms : Nat) :
    desk.LeadsTo (desk.jump ms) ∧ (desk.jump ms).IsStill := by
  have hJump : desk.jump ms = desk.wake (desk.now + ms) := by
    unfold jump Timed.jump
    dsimp only [timed]
  have hDrain :
      { desk with now := desk.now + ms }.drain =
        { desk with now := desk.now + ms } :=
    drain_of_nil hStill.toEngine hStill.toVenue
  have hWake :
      desk.wake (desk.now + ms) =
        { desk with now := desk.now + ms }.fire.fire := by
    unfold wake settle
    rw [hDrain]
  have hFirst :
      desk.LeadsTo { desk with now := desk.now + ms }.fire :=
    (LeadsTo.beat desk (.jump ms)).trans (leadsTo_drain _)
  refine ⟨?_, ?_⟩
  · rw [hJump, hWake]
    exact hFirst.trans (leadsTo_fire _)
  · rw [hJump]
    exact (isStill_wake hStill _).1

theorem leadsTo_ask
    (requests : List Request)
    (desk : Desk) :
    desk.LeadsTo
      (desk.awaiting
        (desk.toEngine ++ requests.map Request.envelope)) := by
  induction requests generalizing desk with
  | nil =>
      rw [List.map_nil, List.append_nil]
      exact .refl desk
  | cons request requests ih =>
      have hRest := ih (desk.ask request)
      have hSame :
          (desk.ask request).awaiting
              ((desk.ask request).toEngine ++
                requests.map Request.envelope) =
            desk.awaiting
              (desk.toEngine ++
                (request :: requests).map Request.envelope) := by
        unfold ask awaiting
        simp
      rw [hSame] at hRest
      exact (LeadsTo.beat desk (.ask request)).trans hRest

/- The throttler is given a timer that does not come back at once. -/
theorem IsSteady.startWindow
    (hSteady : desk.IsSteady) :
    desk.startWindow.IsSteady where
  connected := by
    unfold Desk.startWindow
    split <;> exact hSteady.connected
  interval := by
    rcases desk.timers_startWindow with
      ⟨hSame, _⟩ | ⟨interval, hNew, _⟩
    · rw [hSame]
      exact hSteady.interval
    · rw [hNew]
      intro timer hTimer
      rcases List.mem_append.mp hTimer with hMem | hMem
      · exact hSteady.interval timer hMem
      · split at hMem
        · cases hMem
        · rename_i hInterval
          cases List.mem_singleton.mp hMem
          simpa using hInterval

/- The throttler is started, and what it lets pass is dealt with. -/
theorem leadsTo_startThrottler
    (hStill : desk.IsStill) :
    desk.LeadsTo desk.startThrottler ∧
      desk.startThrottler.IsStill := by
  cases hThrottler : desk.throttler with
  | none =>
      have hSame : desk.startThrottler = desk := by
        unfold startThrottler
        rw [hThrottler]
      rw [hSame]
      exact ⟨.refl desk, hStill⟩
  | some throttler =>
      have hStart :
          desk.startThrottler = desk.startWindow.settle := by
        unfold startThrottler startWindow
        rw [hThrottler]
      rw [hStart]
      exact
        ⟨(LeadsTo.beat desk .start).trans (leadsTo_settle _),
          (isStill_settle hStill.toIsSteady.startWindow).1⟩

theorem leadsTo_stopThrottler
    (hStill : desk.IsStill) :
    desk.LeadsTo desk.stopThrottler ∧
      desk.stopThrottler.IsStill := by
  have hRest :
      desk.stopThrottler.now = desk.now ∧
        desk.stopThrottler.venue = desk.venue ∧
          desk.stopThrottler.toEngine = desk.toEngine ∧
            desk.stopThrottler.toVenue = desk.toVenue := by
    unfold stopThrottler
    split <;> exact ⟨rfl, rfl, rfl, rfl⟩
  rcases hRest with ⟨hNow, hVenue, hToEngine, hToVenue⟩
  have hTimers :
      ∀ timer ∈ desk.stopThrottler.timers.pending,
        timer ∈ desk.timers.pending := by
    rcases desk.timers_stopThrottler with
      ⟨_, ⟨_, hSame⟩ | ⟨number, _, hFewer⟩⟩
    · rw [hSame]
      exact fun _ hTimer => hTimer
    · rw [hFewer]
      exact fun _ hTimer =>
        (cancel_sublist number desk.timers).subset hTimer
  refine ⟨.beat desk .stop, ?_⟩
  exact
    ⟨⟨hVenue ▸ hStill.connected, fun timer hTimer =>
        hStill.interval timer (hTimers timer hTimer)⟩,
      hToEngine.trans hStill.toEngine,
      hToVenue.trans hStill.toVenue, fun timer hTimer =>
        hNow ▸ hStill.ahead timer (hTimers timer hTimer)⟩

/-
  Whatever is done to a desk happens beat by beat, and leaves
  it still if it was still before.
-/
theorem leadsTo_perform
    (hStill : desk.IsStill)
    (deed : Deed) :
    desk.LeadsTo (desk.perform deed) ∧
      (desk.perform deed).IsStill := by
  cases deed with
  | send requests =>
      have hSteady :
          (desk.awaiting
            (desk.toEngine ++
              requests.map Request.envelope)).IsSteady :=
        ⟨hStill.connected, hStill.interval⟩
      exact
        ⟨(leadsTo_ask requests desk).trans (leadsTo_settle _),
          (isStill_settle hSteady).1⟩
  | advance ms =>
      exact leadsTo_advance hStill ms
  | jump ms =>
      exact leadsTo_jump hStill ms
  | pause reason =>
      exact
        ⟨.beat desk (.pause reason),
          ⟨⟨hStill.connected, hStill.interval⟩,
            hStill.toEngine, hStill.toVenue, hStill.ahead⟩⟩
  | resume =>
      exact
        ⟨.beat desk .resume,
          ⟨⟨hStill.connected, hStill.interval⟩,
            hStill.toEngine, hStill.toVenue, hStill.ahead⟩⟩
  | startThrottler => exact leadsTo_startThrottler hStill
  | stopThrottler => exact leadsTo_stopThrottler hStill

theorem leadsTo_undergo
    (hStill : desk.IsStill)
    (deeds : List Deed) :
    desk.LeadsTo (desk.undergo deeds) := by
  induction deeds generalizing desk with
  | nil => exact .refl desk
  | cons deed deeds ih =>
      rcases leadsTo_perform hStill deed with ⟨hFirst, hNext⟩
      exact hFirst.trans (ih hNext)

/- Whatever is done to a new desk happens beat by beat. -/
theorem exists_live_eq_undergo
    (gate : RiskGate)
    (settings : PaperSettings)
    (throttler : Option (Throttler (Envelope TradingMessage)))
    (stamps : Stamps)
    (deeds : List Deed) :
    ∃ beats,
      (Desk.new gate settings throttler stamps).live beats =
        (Desk.new gate settings throttler stamps).undergo
          deeds := by
  have hNew : (Desk.new gate settings throttler stamps).IsStill :=
    ⟨⟨rfl, List.forall_mem_nil _⟩, rfl, rfl, List.forall_mem_nil _⟩
  exact leadsTo_undergo hNew deeds

end Desk

end OrderDesk
