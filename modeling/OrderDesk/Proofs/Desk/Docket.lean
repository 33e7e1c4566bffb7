import OrderDesk.Proofs.Desk.Beats
import OrderDesk.Proofs.Engine.Requests

/-
  This file defines what there is to see of one order at a
  desk, with the times that matter to it, and proves that a
  beat changes little of that.

  Key definitions include:
    * `isCommandFor`
    * `fillTimers`
    * `Docket`
    * `Desk.docket`
    * `DocketMove`

  Key theorems include:
    * `Desk.docketMove_serve`
    * `Desk.docketMove_deliver`
    * `Desk.docketMove_ring`
    * `Desk.docketMove_fire`
-/

namespace OrderDesk

------------------------------------------------------------
-- One Order In Time
------------------------------------------------------------

/- A message asks for an order, or asks to cancel it. -/
def isCommandFor
    (id : OrderId)
    (envelope : Envelope TradingMessage) : Bool :=
  (submissionOf? id envelope).isSome || isCancelOf id envelope

/- A pending fill, if it is one of the given order. -/
def PendingFill.fillOf?
    (id : OrderId)
    (pending : PendingFill) : Option Fill :=
  if pending.orderId = id then some pending.fill else none

/- The fill of the given order that an alarm stands for. -/
def Alarm.fillOf?
    (id : OrderId)
    (alarm : Alarm) : Option Fill :=
  alarm.fill?.bind (PendingFill.fillOf? id)

/- The fills of an order among timers, and when they are due. -/
def fillTimers
    (id : OrderId)
    (timers : List (Timer Alarm)) : List (Nat × Fill) :=
  timers.filterMap fun timer =>
    (timer.payload.fillOf? id).map fun fill =>
      (timer.deadline, fill)

/-
  The fill of an order: all of it, at its own price if it
  has one, and at the reference price otherwise.
-/
def PaperSettings.fillOf
    (settings : PaperSettings)
    (command : SubmitOrder) : Fill :=
  ⟨command.quantity, command.price.getD settings.referencePrice⟩

/-
  What there is to see of one order: the time; the order at
  the engine; the commands for it that are on their way to
  the venue; the events about it that are on their way back;
  whether it rests at the venue; its fills there, which wait
  for their time or are about to happen; and the commands
  for it that the venue has taken, with the times.
-/
structure Docket where
  now : Nat
  order : Option Order
  line : List (Envelope TradingMessage)
  reported : List OrderEvent
  isResting : Bool
  timers : List (Nat × Fill)
  due : List Fill
  taken : List (Nat × Envelope TradingMessage)

/-
  What there is to see of the order under `id`, while
  `alarms` are still to ring and after the venue has taken
  `takings`.
-/
def Desk.docket
    (desk : Desk)
    (alarms : List Alarm)
    (takings : List (Nat × Envelope TradingMessage))
    (id : OrderId) : Docket where
  now := desk.now
  order := desk.engine.blotter.find? id
  line :=
    (desk.asFloor.outbox ++ desk.asFloor.waiting).filter
      (isCommandFor id)
  reported := eventsAbout id desk.toEngine
  isResting := desk.venue.isResting id
  timers := fillTimers id desk.timers.pending
  due := alarms.filterMap (Alarm.fillOf? id)
  taken := takings.filter fun taking => isCommandFor id taking.2

/-
  What one beat can change about an order. Time passes up to
  its next fill; the engine opens the order, passes a cancel
  of it on, or takes a report of it, which it may have to
  refuse; the venue takes a command for it; its fills are
  due; and a fill that is due happens or lapses.
-/
inductive DocketMove
    (settings : PaperSettings)
    (id : OrderId)
    (docket : Docket) :
    Docket → Prop where
  | idle :
      DocketMove settings id docket docket
  | wait
      (later : Nat)
      (hLater : docket.now ≤ later)
      (hStop :
        later = docket.now ∨
          ∀ timer ∈ docket.timers, later ≤ timer.1) :
      DocketMove settings id docket { docket with now := later }
  | refused
      (command : SubmitOrder)
      (occurrence : Occurrence)
      (order : Order)
      (reason : String)
      (hNew : docket.order = none)
      (hRefused :
        occurrence = .invalid reason ∨
          occurrence = .denied reason)
      (hApply :
        (Order.new command).apply ⟨id, occurrence⟩ = .ok order) :
      DocketMove settings id docket
        { docket with order := some order }
  | submitted
      (envelope : Envelope TradingMessage)
      (command : SubmitOrder)
      (order : Order)
      (hNew : docket.order = none)
      (hCommand : submissionOf? id envelope = some command)
      (hApply :
        (Order.new command).apply ⟨id, .submitted⟩ = .ok order) :
      DocketMove settings id docket
        { docket with
          order := some order
          line := docket.line ++ [envelope] }
  | forwarded
      (envelope : Envelope TradingMessage)
      (order : Order)
      (hOrder : docket.order = some order)
      (hOpen : order.isOpen = true)
      (hCancel : isCancelOf id envelope = true) :
      DocketMove settings id docket
        { docket with line := docket.line ++ [envelope] }
  | taken
      (event : OrderEvent)
      (rest : List OrderEvent)
      (order next : Order)
      (hReported : docket.reported = event :: rest)
      (hOrder : docket.order = some order)
      (hApply : order.apply event = .ok next) :
      DocketMove settings id docket
        { docket with order := some next, reported := rest }
  | missed
      (event : OrderEvent)
      (rest : List OrderEvent)
      (hReported : docket.reported = event :: rest)
      (hMissed :
        ∀ order,
          docket.order = some order →
            (∃ e, order.apply event = .error e) ∧
              ∀ fill,
                event.occurrence.fill? = some fill →
                  order.fillTotals? fill ≠ none) :
      DocketMove settings id docket
        { docket with reported := rest }
  | accepted
      (envelope : Envelope TradingMessage)
      (rest : List (Envelope TradingMessage))
      (command : SubmitOrder)
      (venueOrderId : String)
      (hLine : docket.line = envelope :: rest)
      (hCommand : submissionOf? id envelope = some command) :
      DocketMove settings id docket
        { docket with
          line := rest
          reported :=
            docket.reported ++ [⟨id, .accepted venueOrderId⟩]
          isResting := true
          timers :=
            docket.timers ++
              [(docket.now + settings.fillLatencyMs,
                settings.fillOf command)]
          taken := docket.taken ++ [(docket.now, envelope)] }
  | cancelled
      (envelope : Envelope TradingMessage)
      (rest : List (Envelope TradingMessage))
      (hLine : docket.line = envelope :: rest)
      (hCancel : isCancelOf id envelope = true)
      (hResting : docket.isResting = true)
      (hNone : docket.due = []) :
      DocketMove settings id docket
        { docket with
          line := rest
          reported := docket.reported ++ [⟨id, .cancelled⟩]
          isResting := false
          taken := docket.taken ++ [(docket.now, envelope)] }
  | tooLate
      (envelope : Envelope TradingMessage)
      (rest : List (Envelope TradingMessage))
      (hLine : docket.line = envelope :: rest)
      (hCancel : isCancelOf id envelope = true)
      (hGone : docket.isResting = false) :
      DocketMove settings id docket
        { docket with
          line := rest
          taken := docket.taken ++ [(docket.now, envelope)] }
  | due
      (later : Nat)
      (due : List Fill)
      (hLater : docket.now ≤ later)
      (hNone : docket.due = [])
      (hDue :
        due.Perm
          ((docket.timers.filter fun timer =>
            timer.1 ≤ later).map Prod.snd)) :
      DocketMove settings id docket
        { docket with
          now := later
          timers :=
            docket.timers.filter fun timer => ¬timer.1 ≤ later
          due := due }
  | filled
      (fill : Fill)
      (rest : List Fill)
      (hDue : docket.due = fill :: rest)
      (hResting : docket.isResting = true) :
      DocketMove settings id docket
        { docket with
          reported := docket.reported ++ [⟨id, .filled fill⟩]
          isResting := false
          due := rest }
  | lapsed
      (fill : Fill)
      (rest : List Fill)
      (hDue : docket.due = fill :: rest)
      (hGone : docket.isResting = false) :
      DocketMove settings id docket { docket with due := rest }

namespace PaperVenue

/- A fill leaves the venue as it is, but for what rests there. -/
theorem exists_settle
    (stamp : Stamp)
    (venue : PaperVenue)
    (pending : PendingFill) :
    ∃ resting,
      (venue.settle stamp pending).venue =
          { venue with resting := resting } ∧
        (venue.settle stamp pending).pending = none := by
  unfold settle
  split
  · exact ⟨_, rfl, rfl⟩
  · exact ⟨_, rfl, rfl⟩

end PaperVenue

namespace Desk

variable {desk : Desk} {alarms : List Alarm}
variable {takings : List (Nat × Envelope TradingMessage)}
variable {id : OrderId}

------------------------------------------------------------
-- The Engine's Turn
------------------------------------------------------------

theorem asFloor_command
    (desk : Desk)
    (envelope : Envelope TradingMessage) :
    (desk.command envelope).asFloor =
      desk.asFloor.command envelope := by
  unfold Desk.command Floor.command
  cases hThrottler : desk.throttler with
  | none => simp [asFloor, hThrottler]
  | some throttler =>
      simp [asFloor, hThrottler, Throttler.send, Throttler.put]

theorem asFloor_foldl_command
    (commands : List (Envelope TradingMessage))
    (desk : Desk) :
    (commands.foldl command desk).asFloor =
      commands.foldl Floor.command desk.asFloor := by
  induction commands generalizing desk with
  | nil => rfl
  | cons envelope commands ih =>
      rw [List.foldl_cons, ih, asFloor_command, List.foldl_cons]

/- Commands change the throttler and the venue's queue only. -/
theorem foldl_command_eq
    (commands : List (Envelope TradingMessage))
    (desk : Desk) :
    ∃ throttler toVenue,
      commands.foldl command desk =
        { desk with throttler := throttler, toVenue := toVenue } := by
  induction commands generalizing desk with
  | nil => exact ⟨desk.throttler, desk.toVenue, rfl⟩
  | cons envelope commands ih =>
      rcases ih (desk.command envelope) with
        ⟨throttler, toVenue, hRest⟩
      refine ⟨throttler, toVenue, ?_⟩
      rw [List.foldl_cons, hRest]
      unfold command
      split <;> rfl

theorem docket_foldl_command
    (commands : List (Envelope TradingMessage))
    (desk : Desk) :
    (commands.foldl command desk).docket alarms takings id =
      { desk.docket alarms takings id with
        line :=
          (desk.docket alarms takings id).line ++
            commands.filter (isCommandFor id) } := by
  have hFloor := asFloor_foldl_command commands desk
  have hLine :=
    Floor.outbox_waiting_foldl_command commands desk.asFloor
  rw [← hFloor] at hLine
  rcases foldl_command_eq commands desk with
    ⟨throttler, toVenue, hCommands⟩
  rw [hCommands] at hLine ⊢
  simp only [docket, hLine, List.filter_append]

theorem docket_followEngine
    (desk : Desk)
    (step : EngineStep) :
    (desk.followEngine step).docket alarms takings id =
      { desk.docket alarms takings id with
        order := step.engine.blotter.find? id
        line :=
          (desk.docket alarms takings id).line ++
            step.commands.filter (isCommandFor id) } := by
  unfold followEngine
  rw [docket_foldl_command]
  rfl

/-
  What the engine passes on about an order is a cancel, and
  the order is open, unless it is a submission.
-/
theorem commands_of_no_submission
    {stamp : Stamp}
    {engine : Engine}
    {envelope : Envelope TradingMessage}
    {step : EngineStep}
    (hReaction : Engine.Reaction stamp engine envelope step)
    (hNone : submissionsOf id step.commands = []) :
    step.commands.filter (isCommandFor id) = [] ∨
      (step.commands.filter (isCommandFor id) = [envelope] ∧
        isCancelOf id envelope = true ∧
          eventAbout? id envelope = none ∧
            ∃ order,
              engine.blotter.find? id = some order ∧
                order.isOpen = true) := by
  rcases hReaction.commands_cases with
    hNil | ⟨hOne, hRequest⟩
  · rw [hNil]
    exact .inl rfl
  · rw [hOne] at hNone ⊢
    rw [List.filter_singleton]
    cases hCommand : isCommandFor id envelope with
    | false => exact .inl rfl
    | true =>
        have hNoSubmission : submissionOf? id envelope = none := by
          cases hSubmission : submissionOf? id envelope with
          | none => rfl
          | some command =>
              simp [submissionsOf, hSubmission] at hNone
        have hCancel : isCancelOf id envelope = true := by
          simpa [isCommandFor, hNoSubmission] using hCommand
        refine .inr ⟨rfl, hCancel, ?_, ?_⟩
        · apply eventAbout?_eq_none
          intro event hPayload
          simp [isCancelOf, hPayload] at hCancel
        · exact
            hReaction.isOpen_of_cancel_mem
              (by rw [hOne]; exact List.mem_singleton_self _)
              hCancel

/- What the engine passes on of a submission is that submission. -/
theorem commands_of_submission
    {stamp : Stamp}
    {engine : Engine}
    {envelope : Envelope TradingMessage}
    {step : EngineStep}
    {command : SubmitOrder}
    (hReaction : Engine.Reaction stamp engine envelope step)
    (hCommand : submissionOf? id envelope = some command) :
    (submissionsOf id step.commands = [] →
        step.commands.filter (isCommandFor id) = []) ∧
      (submissionsOf id step.commands = [command] →
        step.commands.filter (isCommandFor id) = [envelope]) := by
  rcases hReaction.commands_cases with hNil | ⟨hOne, _⟩
  · rw [hNil]
    exact ⟨fun _ => rfl, fun hSome => by cases hSome⟩
  · rw [hOne]
    refine ⟨fun hNone => ?_, fun _ => ?_⟩
    · simp [submissionsOf, hCommand] at hNone
    · simp [isCommandFor, hCommand]

/- The engine takes its oldest message. -/
theorem docketMove_serve
    (settings : PaperSettings)
    (id : OrderId)
    (hBookable : desk.Bookable .serve) :
    DocketMove settings id (desk.docket alarms takings id)
      (desk.serve.docket alarms takings id) := by
  cases hQueue : desk.toEngine with
  | nil =>
      unfold serve
      rw [hQueue]
      exact .idle
  | cons envelope rest =>
      rcases Engine.exists_reaction
          (desk.stamps.next desk.now).1 desk.engine envelope with
        ⟨step, hHandle, hReaction⟩
      have hReported :
          (desk.docket alarms takings id).reported =
            (eventAbout? id envelope).toList ++
              eventsAbout id rest := by
        simp only [docket, hQueue, eventsAbout_cons]
      have hNext :
          desk.serve.docket alarms takings id =
            { desk.docket alarms takings id with
              order := step.engine.blotter.find? id
              line :=
                (desk.docket alarms takings id).line ++
                  step.commands.filter (isCommandFor id)
              reported := eventsAbout id rest } := by
        rw [serve_eq hQueue hHandle, docket_followEngine]
        rfl
      rw [hNext]
      cases hReaction.orderChange id with
      | kept hFound _ hCommands _ hRefused =>
          rw [hFound]
          rcases commands_of_no_submission hReaction hCommands with
            hNil | ⟨hOne, hCancel, hNoEvent, order, hOrder, hOpen⟩
          · rw [hNil, List.append_nil]
            cases hEvent : eventAbout? id envelope with
            | none =>
                rw [hEvent] at hReported
                have hSame :
                    (desk.docket alarms takings id).reported =
                      eventsAbout id rest :=
                  hReported
                rw [← hSame]
                exact .idle
            | some event =>
                rw [hEvent] at hReported
                refine .missed event _ hReported ?_
                intro order hOrder
                exact
                  ⟨hRefused event order hEvent hOrder,
                    Floor.accountable_of_eventAbout? hBookable
                      hQueue hEvent hOrder⟩
          · rw [hNoEvent] at hReported
            have hSame :
                (desk.docket alarms takings id).reported =
                  eventsAbout id rest :=
              hReported
            rw [hOne, ← hSame]
            exact .forwarded envelope order hOrder hOpen hCancel
      | opened command occurrence order hCommand hId hNew hApply
          hFound hEvents hAdmission =>
          rw [Floor.eventAbout?_of_submissionOf? hCommand]
            at hReported
          have hSame :
              (desk.docket alarms takings id).reported =
                eventsAbout id rest :=
            hReported
          have hCommands :=
            commands_of_submission hReaction hCommand
          rw [hFound, ← hSame]
          rcases hAdmission with
            ⟨rfl, _, hSent⟩ | ⟨reason, hRefused, hKept⟩
          · rw [hCommands.2 hSent]
            exact .submitted envelope command order hNew hCommand hApply
          · rw [hCommands.1 hKept, List.append_nil]
            exact
              .refused command occurrence order reason hNew
                hRefused hApply
      | advanced event order next hEvent hOrder hApply hFound
          hEvents hCommands =>
          rw [hEvent] at hReported
          rw [hFound]
          rcases commands_of_no_submission hReaction hCommands with
            hNil | ⟨_, _, hNoEvent, _⟩
          · rw [hNil, List.append_nil]
            exact .taken event _ order next hReported hOrder hApply
          · cases hNoEvent.symm.trans hEvent

------------------------------------------------------------
-- The Venue's Turn
------------------------------------------------------------

theorem fillTimers_followVenue
    (desk : Desk)
    (step : VenueStep)
    (id : OrderId) :
    fillTimers id (desk.followVenue step).timers.pending =
      fillTimers id desk.timers.pending ++
        (step.pending.toList.filter
            fun pending => pending.orderId = id).map
          fun pending =>
            (desk.now + step.venue.settings.fillLatencyMs,
              pending.fill) := by
  unfold followVenue
  cases step.pending with
  | none => simp
  | some pending =>
      by_cases hId : pending.orderId = id
      · simp [fillTimers, Timers.once, Alarm.fillOf?, Alarm.fill?,
          PendingFill.fillOf?, hId]
      · simp [fillTimers, Timers.once, Alarm.fillOf?, Alarm.fill?,
          PendingFill.fillOf?, hId]

theorem docket_followVenue
    (desk : Desk)
    (step : VenueStep) :
    (desk.followVenue step).docket alarms takings id =
      { desk.docket alarms takings id with
        reported :=
          (desk.docket alarms takings id).reported ++
            eventsAbout id step.reports
        isResting := step.venue.isResting id
        timers :=
          (desk.docket alarms takings id).timers ++
            (step.pending.toList.filter
                fun pending => pending.orderId = id).map
              fun pending =>
                (desk.now + step.venue.settings.fillLatencyMs,
                  pending.fill) } := by
  have hTimers := fillTimers_followVenue desk step id
  unfold docket
  rw [hTimers]
  simp only [followVenue, eventsAbout_append]
  rfl

theorem docket_deliver
    {envelope : Envelope TradingMessage}
    {rest : List (Envelope TradingMessage)}
    {step : VenueStep}
    (hQueue : desk.toVenue = envelope :: rest)
    (hStep :
      desk.venue.handle (desk.stamps.next desk.now).1 envelope =
        step) :
    desk.deliver.docket alarms
        (takings ++ [(desk.now, envelope)]) id =
      { desk.docket alarms takings id with
        line :=
          (rest ++ desk.asFloor.waiting).filter (isCommandFor id)
        reported :=
          (desk.docket alarms takings id).reported ++
            eventsAbout id step.reports
        isResting := step.venue.isResting id
        timers :=
          (desk.docket alarms takings id).timers ++
            (step.pending.toList.filter
                fun pending => pending.orderId = id).map
              fun pending =>
                (desk.now + step.venue.settings.fillLatencyMs,
                  pending.fill)
        taken :=
          (desk.docket alarms takings id).taken ++
            [(desk.now, envelope)].filter fun taking =>
              isCommandFor id taking.2 } := by
  rw [deliver_eq hQueue, hStep, docket_followVenue]
  simp only [docket, List.filter_append]
  rfl

/- What the venue takes was the first in line. -/
theorem line_of_toVenue
    {envelope : Envelope TradingMessage}
    {rest : List (Envelope TradingMessage)}
    (hQueue : desk.toVenue = envelope :: rest) :
    (desk.docket alarms takings id).line =
      [envelope].filter (isCommandFor id) ++
        (rest ++ desk.asFloor.waiting).filter
          (isCommandFor id) := by
  have hOutbox : desk.asFloor.outbox = envelope :: rest := hQueue
  rw [← List.filter_append, List.singleton_append,
    ← List.cons_append, ← hOutbox]
  rfl

/- The venue takes its oldest message. -/
theorem docketMove_deliver
    {settings : PaperSettings}
    (id : OrderId)
    (hConnected : desk.venue.connected = true)
    (hSettings : desk.venue.settings = settings) :
    DocketMove settings id (desk.docket [] takings id)
      (desk.deliver.docket []
        (takings ++ (desk.taking? .deliver).toList) id) := by
  unfold taking?
  cases hQueue : desk.toVenue with
  | nil =>
      unfold deliver
      simp only [hQueue, List.head?_nil, Option.map_none,
        Option.toList_none, List.append_nil]
      exact .idle
  | cons envelope rest =>
      have hReaction :=
        PaperVenue.reaction_handle
          (desk.stamps.next desk.now).1 envelope hConnected
      have hLatency := hReaction.settings.trans hSettings
      have hLine :=
        @line_of_toVenue desk [] takings id _ _ hQueue
      simp only [List.head?_cons, Option.map_some,
        Option.toList_some]
      rw [docket_deliver hQueue rfl]
      cases hReaction.orderChange id with
      | kept hSubmission hCancel hEvents hResting hPending =>
          rw [hEvents, hResting, hPending]
          simp only [List.map_nil, List.append_nil]
          cases hAsked : isCancelOf id envelope with
          | true =>
              have hCommand : isCommandFor id envelope = true := by
                simp [isCommandFor, hAsked]
              simp only [List.filter_cons, List.filter_nil,
                hCommand, if_true, List.singleton_append]
                at hLine ⊢
              exact
                .tooLate envelope _ hLine hAsked (hCancel hAsked)
          | false =>
              have hCommand : isCommandFor id envelope = false := by
                simp [isCommandFor, hAsked, hSubmission]
              simp only [List.filter_cons, List.filter_nil, hCommand,
                Bool.false_eq_true, if_false, List.nil_append,
                List.append_nil] at hLine ⊢
              rw [← hLine]
              exact .idle
      | accepted command hSubmission hEvents hResting hPending =>
          have hCommand : isCommandFor id envelope = true := by
            simp [isCommandFor, hSubmission]
          rw [hEvents, hResting, hPending, hLatency]
          simp only [List.filter_cons, List.filter_nil, hCommand,
            if_true, List.singleton_append, List.map_cons,
            List.map_nil] at hLine ⊢
          rw [← hSettings]
          exact .accepted envelope _ command _ hLine hSubmission
      | cancelled hSubmission hCancel hResting hEvents hGone
          hPending =>
          have hCommand : isCommandFor id envelope = true := by
            simp [isCommandFor, hCancel]
          rw [hEvents, hGone, hPending]
          simp only [List.filter_cons, List.filter_nil, hCommand,
            if_true, List.singleton_append, List.map_nil,
            List.append_nil] at hLine ⊢
          exact
            .cancelled envelope _ hLine hCancel hResting rfl

------------------------------------------------------------
-- The Throttler's Turn
------------------------------------------------------------

/- Only the throttler and the venue's queue matter to the line. -/
theorem docket_of_line
    {next : Desk}
    (hNow : next.now = desk.now)
    (hEngine : next.engine = desk.engine)
    (hVenue : next.venue = desk.venue)
    (hQueue : next.toEngine = desk.toEngine)
    (hTimers :
      fillTimers id next.timers.pending =
        fillTimers id desk.timers.pending)
    (hLine :
      next.asFloor.outbox ++ next.asFloor.waiting =
        desk.asFloor.outbox ++ desk.asFloor.waiting) :
    next.docket alarms takings id =
      desk.docket alarms takings id := by
  simp only [docket, hNow, hEngine, hVenue, hQueue, hTimers, hLine]

theorem line_rollOver
    (desk : Desk) :
    desk.rollOver.asFloor.outbox ++ desk.rollOver.asFloor.waiting =
      desk.asFloor.outbox ++ desk.asFloor.waiting := by
  unfold rollOver
  cases hThrottler : desk.throttler with
  | none => rfl
  | some throttler =>
      have hFifo := throttler.window.roll_fst_append_buffer
      simp [asFloor, Floor.waiting, hThrottler, Throttler.roll,
        Throttler.put, hFifo]

theorem line_startWindow
    (desk : Desk) :
    desk.startWindow.asFloor.outbox ++
        desk.startWindow.asFloor.waiting =
      desk.asFloor.outbox ++ desk.asFloor.waiting := by
  unfold startWindow
  cases hThrottler : desk.throttler with
  | none => rfl
  | some throttler =>
      have hFifo := throttler.window.start_fst_append_buffer
      cases hTimer : throttler.timer with
      | some timer =>
          simp [asFloor, Floor.waiting, hThrottler,
            Throttler.start, hTimer]
      | none =>
          simp [asFloor, Floor.waiting, hThrottler,
            Throttler.start, hTimer, Throttler.put, hFifo]

theorem line_stopThrottler
    (desk : Desk) :
    desk.stopThrottler.asFloor.outbox ++
        desk.stopThrottler.asFloor.waiting =
      desk.asFloor.outbox ++ desk.asFloor.waiting := by
  unfold stopThrottler
  cases hThrottler : desk.throttler with
  | none => rfl
  | some throttler =>
      simp [asFloor, Floor.waiting, hThrottler, Throttler.stop,
        Window.stop]

/-
  A throttler that is started has a timer already, or gets a
  new one. Nothing happens without a throttler.
-/
theorem timers_startWindow
    (desk : Desk) :
    (desk.startWindow.timers = desk.timers ∧
        desk.startWindow.throttler.bind (·.timer) =
          desk.throttler.bind (·.timer)) ∨
      ∃ interval,
        desk.startWindow.timers =
            (desk.timers.periodic desk.now interval
              .rollover).2 ∧
          desk.startWindow.throttler.bind (·.timer) =
            some desk.timers.next := by
  unfold startWindow
  cases hThrottler : desk.throttler with
  | none => exact .inl ⟨rfl, by simp [hThrottler]⟩
  | some throttler =>
      cases hTimer : throttler.timer with
      | some timer =>
          left
          simp [Throttler.start, hTimer]
      | none =>
          right
          refine ⟨throttler.intervalMs, ?_⟩
          simp [Throttler.start, hTimer, Throttler.put,
            Timers.periodic]

/-
  A throttler that is stopped lets go of its timer, if it has
  one. Nothing happens without a throttler.
-/
theorem timers_stopThrottler
    (desk : Desk) :
    desk.stopThrottler.throttler.bind (·.timer) = none ∧
      ((desk.throttler.bind (·.timer) = none ∧
          desk.stopThrottler.timers = desk.timers) ∨
        ∃ number,
          desk.throttler.bind (·.timer) = some number ∧
            desk.stopThrottler.timers =
              desk.timers.cancel number) := by
  unfold stopThrottler Throttler.stop
  cases hThrottler : desk.throttler with
  | none => simp [hThrottler]
  | some throttler =>
      cases hTimer : throttler.timer with
      | none => simp [hTimer]
      | some number => simp [hTimer]

theorem fillTimers_periodic
    (now interval : Nat)
    (timers : Timers Alarm)
    (id : OrderId) :
    fillTimers id
        (timers.periodic now interval .rollover).2.pending =
      fillTimers id timers.pending := by
  unfold Timers.periodic fillTimers
  split <;> simp [Alarm.fillOf?, Alarm.fill?]

theorem docket_startWindow
    (desk : Desk) :
    desk.startWindow.docket alarms takings id =
      desk.docket alarms takings id := by
  have hTimers :
      fillTimers id desk.startWindow.timers.pending =
        fillTimers id desk.timers.pending := by
    rcases desk.timers_startWindow with
      ⟨hSame, _⟩ | ⟨interval, hNew, _⟩
    · rw [hSame]
    · rw [hNew]
      exact fillTimers_periodic _ _ _ id
  have hLine := line_startWindow desk
  have hRest :
      desk.startWindow.now = desk.now ∧
        desk.startWindow.engine = desk.engine ∧
          desk.startWindow.venue = desk.venue ∧
            desk.startWindow.toEngine = desk.toEngine := by
    unfold startWindow
    split <;> exact ⟨rfl, rfl, rfl, rfl⟩
  exact
    docket_of_line hRest.1 hRest.2.1 hRest.2.2.1 hRest.2.2.2
      hTimers hLine

theorem docket_rollOver
    (desk : Desk) :
    desk.rollOver.docket alarms takings id =
      desk.docket alarms takings id := by
  have hLine := line_rollOver desk
  have hRest :
      desk.rollOver.now = desk.now ∧
        desk.rollOver.engine = desk.engine ∧
          desk.rollOver.venue = desk.venue ∧
            desk.rollOver.toEngine = desk.toEngine ∧
              desk.rollOver.timers = desk.timers := by
    unfold rollOver
    split <;> exact ⟨rfl, rfl, rfl, rfl, rfl⟩
  exact
    docket_of_line hRest.1 hRest.2.1 hRest.2.2.1 hRest.2.2.2.1
      (by rw [hRest.2.2.2.2]) hLine

------------------------------------------------------------
-- Alarms
------------------------------------------------------------

theorem settle_of_ne
    {stamp : Stamp}
    {venue : PaperVenue}
    {pending : PendingFill}
    (hId : pending.orderId ≠ id) :
    eventsAbout id (venue.settle stamp pending).reports = [] ∧
      (venue.settle stamp pending).venue.isResting id =
        venue.isResting id := by
  unfold PaperVenue.settle
  split
  · refine ⟨?_, ?_⟩
    · dsimp only
      split
      · simp [eventsAbout, eventAbout?, Envelope.event,
          Envelope.make, hId]
      · rfl
    · rw [PaperVenue.isResting_unrest]
      simp [Ne.symm hId]
  · exact ⟨rfl, rfl⟩

/- An alarm that rings is dealt with. -/
theorem docketMove_ring
    {alarm : Alarm}
    (settings : PaperSettings)
    (id : OrderId)
    (hConnected : desk.venue.connected = true) :
    DocketMove settings id
      (desk.docket (alarm :: alarms) takings id)
      ((desk.ring alarm).docket alarms takings id) := by
  cases alarm with
  | rollover =>
      unfold ring
      rw [docket_rollOver]
      exact .idle
  | fill pending =>
      rcases desk.venue.exists_settle
          (desk.stamps.next desk.now).1 pending with
        ⟨_, _, hPending⟩
      have hNext :
          (desk.ring (.fill pending)).docket alarms takings id =
            { desk.docket alarms takings id with
              reported :=
                (desk.docket alarms takings id).reported ++
                  eventsAbout id
                    (desk.venue.settle
                      (desk.stamps.next desk.now).1
                      pending).reports
              isResting :=
                (desk.venue.settle (desk.stamps.next desk.now).1
                  pending).venue.isResting id } := by
        unfold ring
        dsimp only
        rw [docket_followVenue, hPending]
        simp only [Option.toList_none, List.filter_nil,
          List.map_nil, List.append_nil]
        rfl
      rw [hNext]
      by_cases hId : pending.orderId = id
      · have hDue :
            (desk.docket (.fill pending :: alarms) takings
                id).due =
              pending.fill ::
                (desk.docket alarms takings id).due := by
          simp [docket, Alarm.fillOf?, Alarm.fill?,
            PendingFill.fillOf?, hId]
        unfold PaperVenue.settle
        rw [hId]
        by_cases hResting : desk.venue.isResting id
        · have hEvents :
              eventsAbout id
                  [Envelope.event (desk.stamps.next desk.now).1
                    (.orderEvent ⟨id, .filled pending.fill⟩)] =
                [⟨id, .filled pending.fill⟩] := by
            simp [eventsAbout, eventAbout?, Envelope.event,
              Envelope.make]
          have hGone := desk.venue.isResting_unrest id id
          rw [decide_eq_true rfl, Bool.not_true,
            Bool.false_and] at hGone
          simp only [hResting, if_true, hConnected, hEvents, hGone]
          exact .filled pending.fill _ hDue hResting
        · rw [if_neg hResting]
          dsimp only
          rw [eventsAbout_nil, List.append_nil]
          exact
            .lapsed pending.fill _ hDue
              (Bool.eq_false_iff.mpr hResting)
      · have hKept :=
          @settle_of_ne id (desk.stamps.next desk.now).1
            desk.venue pending hId
        rw [hKept.1, hKept.2, List.append_nil]
        have hSame :
            desk.docket (.fill pending :: alarms) takings id =
              desk.docket alarms takings id := by
          simp [docket, Alarm.fillOf?, Alarm.fill?,
            PendingFill.fillOf?, hId]
        rw [hSame]
        exact .idle

/- The fills of an order that are due, or not, are due at their time. -/
theorem fillTimers_filter
    (timers : List (Timer Alarm))
    (id : OrderId)
    (isNow : Nat → Bool) :
    fillTimers id
        (timers.filter fun timer => isNow timer.deadline) =
      (fillTimers id timers).filter fun timer => isNow timer.1 := by
  induction timers with
  | nil => rfl
  | cons timer timers ih =>
      unfold fillTimers at ih ⊢
      cases hFill : timer.payload.fillOf? id with
      | none =>
          cases hNow : isNow timer.deadline <;>
            simp [hFill, hNow, ih]
      | some fill =>
          cases hNow : isNow timer.deadline <;>
            simp [hFill, hNow, ih]

theorem map_snd_fillTimers
    (timers : List (Timer Alarm))
    (id : OrderId) :
    (fillTimers id timers).map Prod.snd =
      (fillsOf timers).filterMap (PendingFill.fillOf? id) := by
  unfold fillTimers fillsOf
  rw [List.map_filterMap, List.filterMap_filterMap]
  apply List.filterMap_congr
  intro timer _
  unfold Alarm.fillOf?
  cases timer.payload.fill?.bind (PendingFill.fillOf? id) <;> rfl

/- Every fill of an order that is due is due once. -/
theorem fillOf?_of_due
    {due : List (Timer Alarm)}
    {now : Nat}
    (id : OrderId)
    (hOnce : OneShot due) :
    (due.flatMap fun timer =>
        List.replicate (timer.firings now)
          timer.payload).filterMap (Alarm.fillOf? id) =
      (fillTimers id due).map Prod.snd := by
  rw [map_snd_fillTimers, ← @fills_of_due due now hOnce,
    List.filterMap_filterMap]
  rfl

theorem fillTimers_renewed
    {due : List (Timer Alarm)}
    {now : Nat}
    (id : OrderId)
    (hOnce : OneShot due) :
    fillTimers id (due.filterMap (·.renewed? now)) = [] := by
  have hNone := @fillsOf_renewed due now hOnce
  rw [← List.map_eq_nil_iff (f := Prod.snd), map_snd_fillTimers,
    hNone]
  rfl

/-
  When timers fire, the fills of an order that are due ring,
  and those that are not due stay.
-/
theorem docketMove_fire
    {later : Nat}
    (settings : PaperSettings)
    (id : OrderId)
    (hOnce : OneShot desk.timers.pending)
    (hLater : desk.now ≤ later) :
    DocketMove settings id (desk.docket [] takings id)
      (({ desk with
          now := later
          timers := (desk.timers.fire later).2 } : Desk).docket
        (desk.timers.fire later).1 takings id) := by
  have hPerm := due_perm later desk.timers
  have hDue : OneShot (desk.timers.due later) := by
    intro timer hTimer
    exact
      hOnce timer
        (List.mem_of_mem_filter (hPerm.mem_iff.mp hTimer))
  have hStay :
      fillTimers id (desk.timers.fire later).2.pending =
        (fillTimers id desk.timers.pending).filter
          fun timer => ¬timer.1 ≤ later := by
    have hKept :=
      fillTimers_filter desk.timers.pending id
        fun deadline => ¬deadline ≤ later
    have hRenewed := @fillTimers_renewed _ later id hDue
    unfold Timers.fire
    unfold fillTimers at hKept hRenewed ⊢
    dsimp only
    rw [List.filterMap_append, hRenewed, List.append_nil, ← hKept]
    simp [Timer.isDue]
  have hRing :
      ((desk.timers.fire later).1.filterMap
          (Alarm.fillOf? id)).Perm
        (((fillTimers id desk.timers.pending).filter
          fun timer => timer.1 ≤ later).map Prod.snd) := by
    unfold Timers.fire
    dsimp only
    rw [fillOf?_of_due id hDue,
      ← fillTimers_filter desk.timers.pending id
        fun deadline => deadline ≤ later]
    exact (hPerm.filterMap _).map Prod.snd
  have hNext :
      (({ desk with
            now := later
            timers := (desk.timers.fire later).2 } : Desk).docket
          (desk.timers.fire later).1 takings id) =
        { desk.docket [] takings id with
          now := later
          timers :=
            (fillTimers id desk.timers.pending).filter
              fun timer => ¬timer.1 ≤ later
          due :=
            (desk.timers.fire later).1.filterMap
              (Alarm.fillOf? id) } := by
    unfold docket
    rw [hStay]
    rfl
  rw [hNext]
  exact .due later _ hLater rfl hRing

------------------------------------------------------------
-- Everything Else
------------------------------------------------------------

theorem docket_ask
    (desk : Desk)
    (request : Request) :
    (desk.ask request).docket alarms takings id =
      desk.docket alarms takings id := by
  have hNone : eventAbout? id request.envelope = none := by
    apply eventAbout?_eq_none
    intro event
    cases request <;> simp [Request.envelope]
  simp only [docket, ask, eventsAbout_append, eventsAbout_cons,
    hNone, eventsAbout_nil, Option.toList_none, List.append_nil]
  rfl

theorem docketMove_wait
    (settings : PaperSettings)
    (id : OrderId)
    (ms : Nat) :
    DocketMove settings id (desk.docket alarms takings id)
      (({ desk with now := desk.timeAfter ms } : Desk).docket
        alarms takings id) := by
  refine .wait (desk.timeAfter ms) ?_ ?_
  · change desk.now ≤ desk.timeAfter ms
    unfold timeAfter
    split
    · exact Nat.le_add_right _ _
    · exact Nat.le_max_left _ _
  · rw [or_iff_not_imp_left]
    intro hPassed timer hTimer
    change timer ∈ fillTimers id desk.timers.pending at hTimer
    rcases List.mem_filterMap.mp hTimer with
      ⟨pending, hPending, hFill⟩
    rcases Option.map_eq_some_iff.mp hFill with ⟨fill, _, rfl⟩
    rcases exists_deadline?_le hPending with
      ⟨deadline, hDeadline, hLe⟩
    change ¬desk.timeAfter ms = desk.now at hPassed
    unfold timeAfter at hPassed ⊢
    rw [hDeadline] at hPassed ⊢
    dsimp only at hPassed ⊢
    omega

end Desk

end OrderDesk
