import OrderDesk.Proofs.Desk.Docket

/-
  This file defines how an order fares in time, and proves
  that every beat leads from one phase of an order to
  another.

  An order that the venue has accepted waits for its fill,
  and time does not pass the deadline of that fill before it
  rings. So a cancel that the venue takes while the order
  rests comes before the deadline, and one that comes too
  late for a filled order comes after it.

  Key definitions include:
    * `Took`
    * `Awaits`
    * `OrderFate`
    * `OrderPhase`

  Key theorems include:
    * `OrderPhase.exists_apply`
    * `OrderPhase.move`
-/

namespace OrderDesk

------------------------------------------------------------
-- Parts Of A Docket
------------------------------------------------------------

namespace Docket

/- Nothing about the order is on its way or at the venue. -/
structure IsQuiet
    (docket : Docket) : Prop where
  line : docket.line = []
  reported : docket.reported = []
  isResting : docket.isResting = false
  timers : docket.timers = []
  due : docket.due = []
  taken : docket.taken = []

end Docket

/-
  The order at the engine came from a command, and its
  history and what is reported of it make up its life so far.
-/
structure Lives
    (found : Option Order)
    (reported : List OrderEvent)
    (command : SubmitOrder)
    (order : Order)
    (life : List OrderEvent) : Prop where
  found_eq : found = some order
  begun : order.history ≠ []
  replay : (Order.new command).replay order.history = .ok order
  life_eq : order.history ++ reported = life

/-
  The venue has taken the submission of an order at a time
  and nothing but cancels since then, and nothing but
  cancels is still in line.
-/
structure Took
    (id : OrderId)
    (command : SubmitOrder)
    (line : List (Envelope TradingMessage))
    (taken : List (Nat × Envelope TradingMessage))
    (start : Nat)
    (cancels : List (Nat × Envelope TradingMessage)) : Prop where
  line_cancels : ∀ other ∈ line, isCancelOf id other = true
  taken_eq :
    ∃ envelope,
      submissionOf? id envelope = some command ∧
        taken = (start, envelope) :: cancels
  cancels : ∀ taking ∈ cancels, isCancelOf id taking.2 = true

/- The fill of an order waits for its time, or it rings. -/
inductive Awaits
    (now : Nat)
    (timers : List (Nat × Fill))
    (due : List Fill)
    (deadline : Nat)
    (fill : Fill) : Prop where
  | waits
      (hTimers : timers = [(deadline, fill)])
      (hDue : due = [])
      (hNow : now ≤ deadline)
  | rings
      (hTimers : timers = [])
      (hDue : due = [fill])
      (hNow : deadline ≤ now)

------------------------------------------------------------
-- Fates
------------------------------------------------------------

/-
  How an order fares at the venue, along with its life so
  far. It is on its way there, with cancels behind it; it
  waits for its fill; it was cancelled no later than its fill
  was due; or it was filled at that time, and no cancel of it
  came earlier.
-/
inductive OrderFate
    (settings : PaperSettings)
    (id : OrderId)
    (command : SubmitOrder)
    (docket : Docket) :
    List OrderEvent → Prop where
  | sent
      (envelope : Envelope TradingMessage)
      (cancels : List (Envelope TradingMessage))
      (hLine : docket.line = envelope :: cancels)
      (hCommand : submissionOf? id envelope = some command)
      (hCancels :
        ∀ other ∈ cancels, isCancelOf id other = true)
      (hTaken : docket.taken = [])
      (hResting : docket.isResting = false)
      (hTimers : docket.timers = [])
      (hDue : docket.due = []) :
      OrderFate settings id command docket [⟨id, .submitted⟩]
  | waiting
      (venueOrderId : String)
      (start : Nat)
      (hTook :
        Took id command docket.line docket.taken start [])
      (hResting : docket.isResting = true)
      (hAwaits :
        Awaits docket.now docket.timers docket.due
          (start + settings.fillLatencyMs)
          (settings.fillOf command)) :
      OrderFate settings id command docket
        [⟨id, .submitted⟩, ⟨id, .accepted venueOrderId⟩]
  | cancelled
      (venueOrderId : String)
      (start : Nat)
      (cancels : List (Nat × Envelope TradingMessage))
      (hTook :
        Took id command docket.line docket.taken start cancels)
      (hResting : docket.isResting = false)
      (hEarly :
        ∃ taking ∈ cancels,
          taking.1 ≤ start + settings.fillLatencyMs) :
      OrderFate settings id command docket
        [⟨id, .submitted⟩, ⟨id, .accepted venueOrderId⟩,
          ⟨id, .cancelled⟩]
  | filled
      (venueOrderId : String)
      (start : Nat)
      (cancels : List (Nat × Envelope TradingMessage))
      (hTook :
        Took id command docket.line docket.taken start cancels)
      (hResting : docket.isResting = false)
      (hLate :
        ∀ taking ∈ cancels,
          start + settings.fillLatencyMs ≤ taking.1)
      (hNow : start + settings.fillLatencyMs ≤ docket.now) :
      OrderFate settings id command docket
        [⟨id, .submitted⟩, ⟨id, .accepted venueOrderId⟩,
          ⟨id, .filled (settings.fillOf command)⟩]

/-
  How far an order has come. Nobody has asked for it yet; or
  the engine has turned it down; or it was passed on, and
  fares somehow at the venue.
-/
inductive OrderPhase
    (settings : PaperSettings)
    (id : OrderId)
    (docket : Docket) : Prop where
  | unknown
      (hOrder : docket.order = none)
      (hQuiet : docket.IsQuiet)
  | refused
      (command : SubmitOrder)
      (occurrence : Occurrence)
      (order : Order)
      (reason : String)
      (hOrder : docket.order = some order)
      (hRefused :
        occurrence = .invalid reason ∨
          occurrence = .denied reason)
      (hApply :
        (Order.new command).apply ⟨id, occurrence⟩ = .ok order)
      (hQuiet : docket.IsQuiet)
  | placed
      (command : SubmitOrder)
      (order : Order)
      (life : List OrderEvent)
      (hLives :
        Lives docket.order docket.reported command order life)
      (hFate : OrderFate settings id command docket life)

variable {settings : PaperSettings} {id : OrderId}
variable {command : SubmitOrder} {docket next : Docket}
variable {order : Order} {life : List OrderEvent}
variable {envelope : Envelope TradingMessage}
variable {rest : List (Envelope TradingMessage)}
variable {start : Nat}
variable {cancels : List (Nat × Envelope TradingMessage)}

/- In the life of an order each event is legal after the one before. -/
theorem OrderFate.chain
    (hFate : OrderFate settings id command docket life) :
    life.IsChain OrderEvent.Leads := by
  cases hFate with
  | sent => exact .singleton _
  | waiting => exact .cons_cons ⟨_, rfl⟩ (.singleton _)
  | cancelled =>
      exact
        .cons_cons ⟨_, rfl⟩ (.cons_cons ⟨_, rfl⟩ (.singleton _))
  | filled =>
      exact
        .cons_cons ⟨_, rfl⟩ (.cons_cons ⟨_, rfl⟩ (.singleton _))

/- What happens at the engine does not change how an order fares. -/
theorem OrderFate.engine
    (order : Option Order)
    (reported : List OrderEvent)
    (hFate : OrderFate settings id command docket life) :
    OrderFate settings id command
      { docket with order := order, reported := reported } life := by
  cases hFate with
  | sent envelope cancels hLine hCommand hCancels hTaken hResting
      hTimers hDue =>
      exact
        .sent envelope cancels hLine hCommand hCancels hTaken
          hResting hTimers hDue
  | waiting venueOrderId start hTook hResting hAwaits =>
      exact .waiting venueOrderId start hTook hResting hAwaits
  | cancelled venueOrderId start cancels hTook hResting hEarly =>
      exact
        .cancelled venueOrderId start cancels hTook hResting
          hEarly
  | filled venueOrderId start cancels hTook hResting hLate hNow =>
      exact
        .filled venueOrderId start cancels hTook hResting hLate
          hNow

section

variable {line : List (Envelope TradingMessage)}
variable {taken : List (Nat × Envelope TradingMessage)}

/- What is reported of an order next prolongs its life. -/
theorem Lives.reports
    {found : Option Order}
    {reported : List OrderEvent}
    (event : OrderEvent)
    (hLives : Lives found reported command order life) :
    Lives found (reported ++ [event]) command order
      (life ++ [event]) where
  found_eq := hLives.found_eq
  begun := hLives.begun
  replay := hLives.replay
  life_eq := by rw [← List.append_assoc, hLives.life_eq]

theorem Took.forwarded
    (hTook : Took id command line taken start cancels)
    (hCancel : isCancelOf id envelope = true) :
    Took id command (line ++ [envelope]) taken start cancels where
  line_cancels := by
    rw [List.forall_mem_append]
    exact ⟨hTook.line_cancels, by simpa using hCancel⟩
  taken_eq := hTook.taken_eq
  cancels := hTook.cancels

theorem Took.delivered
    (now : Nat)
    (hTook :
      Took id command (envelope :: rest) taken start cancels) :
    Took id command rest (taken ++ [(now, envelope)]) start
      (cancels ++ [(now, envelope)]) := by
  rcases List.forall_mem_cons.mp hTook.line_cancels with
    ⟨hFirst, hRest⟩
  rcases hTook.taken_eq with ⟨first, hCommand, hTaken⟩
  refine ⟨hRest, ⟨first, hCommand, by simp [hTaken]⟩, ?_⟩
  rw [List.forall_mem_append]
  exact ⟨hTook.cancels, by simpa using hFirst⟩

end

------------------------------------------------------------
-- The Engine's Beats
------------------------------------------------------------

namespace OrderPhase

theorem begun
    (hPhase : OrderPhase settings id docket)
    (hOrder : docket.order = some order) :
    order.history ≠ [] := by
  cases hPhase with
  | unknown hNone => cases hNone.symm.trans hOrder
  | refused command occurrence other reason hFound _ hApply =>
      cases hFound.symm.trans hOrder
      rw [Order.history_of_apply hApply]
      simp
  | placed command other life hLives =>
      cases hLives.found_eq.symm.trans hOrder
      exact hLives.begun

/- What is reported of an order can be applied to it. -/
theorem exists_apply
    {event : OrderEvent}
    {rest : List OrderEvent}
    (hPhase : OrderPhase settings id docket)
    (hReported : docket.reported = event :: rest)
    (hFits :
      ∀ order,
        docket.order = some order →
          ∀ fill,
            event.occurrence.fill? = some fill →
              order.fillTotals? fill ≠ none) :
    ∃ order next,
      docket.order = some order ∧
        order.apply event = .ok next := by
  cases hPhase with
  | unknown _ hQuiet =>
      cases hQuiet.reported.symm.trans hReported
  | refused _ _ _ _ _ _ _ hQuiet =>
      cases hQuiet.reported.symm.trans hReported
  | placed command order life hLives hFate =>
      have hChain := hFate.chain
      rw [← hLives.life_eq, hReported] at hChain
      rcases Order.exists_apply_of_chain hLives.replay
          hLives.begun hChain (hFits order hLives.found_eq) with
        ⟨next, hApply⟩
      exact ⟨order, next, hLives.found_eq, hApply⟩

theorem taken
    {event : OrderEvent}
    {rest : List OrderEvent}
    {changed : Order}
    (hPhase : OrderPhase settings id docket)
    (hReported : docket.reported = event :: rest)
    (hOrder : docket.order = some order)
    (hApply : order.apply event = .ok changed) :
    OrderPhase settings id
      { docket with order := some changed, reported := rest } := by
  cases hPhase with
  | unknown _ hQuiet =>
      cases hQuiet.reported.symm.trans hReported
  | refused _ _ _ _ _ _ _ hQuiet =>
      cases hQuiet.reported.symm.trans hReported
  | placed command other life hLives hFate =>
      cases hLives.found_eq.symm.trans hOrder
      have hHistory := Order.history_of_apply hApply
      refine .placed command changed life ?_ (hFate.engine _ _)
      exact
        { found_eq := rfl
          begun := by simp [hHistory]
          replay := by
            rw [hHistory]
            exact
              Order.replay_append_of_apply hLives.replay hApply
          life_eq := by
            rw [← hLives.life_eq, hReported, hHistory]
            simp }

theorem turnedDown
    {occurrence : Occurrence}
    {reason : String}
    (hPhase : OrderPhase settings id docket)
    (hNew : docket.order = none)
    (hRefused :
      occurrence = .invalid reason ∨ occurrence = .denied reason)
    (hApply :
      (Order.new command).apply ⟨id, occurrence⟩ = .ok order) :
    OrderPhase settings id { docket with order := some order } := by
  cases hPhase with
  | refused _ _ _ _ hOrder => cases hNew.symm.trans hOrder
  | placed _ _ _ hLives => cases hNew.symm.trans hLives.found_eq
  | unknown hOrder hQuiet =>
      exact
        .refused command occurrence order reason rfl hRefused
          hApply { hQuiet with }

theorem submitted
    (hPhase : OrderPhase settings id docket)
    (hNew : docket.order = none)
    (hCommand : submissionOf? id envelope = some command)
    (hApply :
      (Order.new command).apply ⟨id, .submitted⟩ = .ok order) :
    OrderPhase settings id
      { docket with
        order := some order
        line := docket.line ++ [envelope] } := by
  cases hPhase with
  | refused _ _ _ _ hOrder => cases hNew.symm.trans hOrder
  | placed _ _ _ hLives => cases hNew.symm.trans hLives.found_eq
  | unknown hOrder hQuiet =>
      have hHistory : order.history = [⟨id, .submitted⟩] :=
        Order.history_of_apply hApply
      refine .placed command order [⟨id, .submitted⟩] ?_ ?_
      · exact
          { found_eq := rfl
            begun := by simp [hHistory]
            replay := by
              rw [hHistory]
              exact
                Order.replay_append_of_apply (Order.replay_nil _)
                  hApply
            life_eq := by simp [hHistory, hQuiet.reported] }
      · exact
          .sent envelope [] (by simp [hQuiet.line]) hCommand
            (by simp) hQuiet.taken hQuiet.isResting hQuiet.timers
            hQuiet.due

theorem forwarded
    (hPhase : OrderPhase settings id docket)
    (hOrder : docket.order = some order)
    (hOpen : order.isOpen = true)
    (hCancel : isCancelOf id envelope = true) :
    OrderPhase settings id
      { docket with line := docket.line ++ [envelope] } := by
  cases hPhase with
  | unknown hNone => cases hNone.symm.trans hOrder
  | refused command occurrence other reason hOther hRefused
      hApply =>
      cases hOther.symm.trans hOrder
      have hState := Order.state_of_apply hApply
      unfold Order.isOpen at hOpen
      rw [hState] at hOpen
      rcases hRefused with rfl | rfl <;> cases hOpen
  | placed command other life hLives hFate =>
      refine .placed command other life hLives ?_
      cases hFate with
      | sent first cancels hLine hCommand hCancels hTaken hResting
          hTimers hDue =>
          refine
            .sent first (cancels ++ [envelope])
              (by simp [hLine]) hCommand ?_ hTaken hResting hTimers
              hDue
          rw [List.forall_mem_append]
          exact ⟨hCancels, by simpa using hCancel⟩
      | waiting venueOrderId start hTook hResting hAwaits =>
          exact
            .waiting venueOrderId start (hTook.forwarded hCancel)
              hResting hAwaits
      | cancelled venueOrderId start cancels hTook hResting
          hEarly =>
          exact
            .cancelled venueOrderId start cancels
              (hTook.forwarded hCancel) hResting hEarly
      | filled venueOrderId start cancels hTook hResting hLate
          hNow =>
          exact
            .filled venueOrderId start cancels
              (hTook.forwarded hCancel) hResting hLate hNow

------------------------------------------------------------
-- The Venue's Beats
------------------------------------------------------------

/- A submission that is the first in line was not taken before. -/
theorem of_submission_in_line
    (hPhase : OrderPhase settings id docket)
    (hLine : docket.line = envelope :: rest)
    (hCommand : submissionOf? id envelope = some command) :
    ∃ order,
      Lives docket.order docket.reported command order
          [⟨id, .submitted⟩] ∧
        (∀ other ∈ rest, isCancelOf id other = true) ∧
          docket.taken = [] ∧
            docket.timers = [] ∧ docket.due = [] := by
  have hFirst :
      ∀ {first start cancels},
        ¬Took id first docket.line docket.taken start
          cancels := by
    intro first start cancels hTook
    have hPayload := (payload_of_submissionOf? hCommand).1
    have hCancel :=
      hTook.line_cancels envelope (by simp [hLine])
    simp [isCancelOf, hPayload] at hCancel
  cases hPhase with
  | unknown _ hQuiet => cases hQuiet.line.symm.trans hLine
  | refused _ _ _ _ _ _ _ hQuiet =>
      cases hQuiet.line.symm.trans hLine
  | placed other order life hLives hFate =>
      cases hFate with
      | sent sent cancels hOwn hOther hCancels hTaken hResting
          hTimers hDue =>
          cases hOwn.symm.trans hLine
          cases hOther.symm.trans hCommand
          exact
            ⟨order, hLives, hCancels, hTaken, hTimers, hDue⟩
      | waiting _ _ hTook => exact absurd hTook hFirst
      | cancelled _ _ _ hTook => exact absurd hTook hFirst
      | filled _ _ _ hTook => exact absurd hTook hFirst

theorem accepted
    (venueOrderId : String)
    (hPhase : OrderPhase settings id docket)
    (hLine : docket.line = envelope :: rest)
    (hCommand : submissionOf? id envelope = some command) :
    OrderPhase settings id
      { docket with
        line := rest
        reported :=
          docket.reported ++ [⟨id, .accepted venueOrderId⟩]
        isResting := true
        timers :=
          docket.timers ++
            [(docket.now + settings.fillLatencyMs,
              settings.fillOf command)]
        taken := docket.taken ++ [(docket.now, envelope)] } := by
  rcases hPhase.of_submission_in_line hLine hCommand with
    ⟨order, hLives, hCancels, hTaken, hTimers, hDue⟩
  have hTook :
      Took id command rest
        (docket.taken ++ [(docket.now, envelope)]) docket.now
        [] :=
    ⟨hCancels, ⟨envelope, hCommand, by simp [hTaken]⟩, by simp⟩
  refine .placed command order _ (hLives.reports _) ?_
  exact
    .waiting venueOrderId docket.now hTook rfl
      (.waits (by simp [hTimers]) hDue (Nat.le_add_right _ _))

/- An order that rests waits for its fill. -/
theorem of_isResting
    (hPhase : OrderPhase settings id docket)
    (hResting : docket.isResting = true) :
    ∃ command order venueOrderId start,
      Lives docket.order docket.reported command order
          [⟨id, .submitted⟩, ⟨id, .accepted venueOrderId⟩] ∧
        Took id command docket.line docket.taken start [] ∧
          Awaits docket.now docket.timers docket.due
            (start + settings.fillLatencyMs)
            (settings.fillOf command) := by
  cases hPhase with
  | unknown _ hQuiet => cases hQuiet.isResting.symm.trans hResting
  | refused _ _ _ _ _ _ _ hQuiet =>
      cases hQuiet.isResting.symm.trans hResting
  | placed command order life hLives hFate =>
      cases hFate with
      | sent _ _ _ _ _ _ hGone => cases hGone.symm.trans hResting
      | cancelled _ _ _ _ hGone => cases hGone.symm.trans hResting
      | filled _ _ _ _ hGone => cases hGone.symm.trans hResting
      | waiting venueOrderId start hTook _ hAwaits =>
          exact
            ⟨command, order, venueOrderId, start, hLives, hTook,
              hAwaits⟩

/-
  The venue cancels an order. No alarm rings meanwhile, so
  the deadline of its fill has not passed.
-/
theorem cancelled
    (hPhase : OrderPhase settings id docket)
    (hQuiet : docket.due = [])
    (hLine : docket.line = envelope :: rest)
    (hResting : docket.isResting = true) :
    OrderPhase settings id
      { docket with
        line := rest
        reported := docket.reported ++ [⟨id, .cancelled⟩]
        isResting := false
        taken := docket.taken ++ [(docket.now, envelope)] } := by
  rcases hPhase.of_isResting hResting with
    ⟨command, order, venueOrderId, start, hLives, hTook, hAwaits⟩
  rw [hLine] at hTook
  refine .placed command order _ (hLives.reports _) ?_
  refine
    .cancelled venueOrderId start _ (hTook.delivered docket.now)
      rfl ⟨(docket.now, envelope), by simp, ?_⟩
  cases hAwaits with
  | waits _ _ hNow => exact hNow
  | rings _ hDue => cases hDue.symm.trans hQuiet

theorem tooLate
    (hPhase : OrderPhase settings id docket)
    (hLine : docket.line = envelope :: rest)
    (hCancel : isCancelOf id envelope = true)
    (hGone : docket.isResting = false) :
    OrderPhase settings id
      { docket with
        line := rest
        taken := docket.taken ++ [(docket.now, envelope)] } := by
  cases hPhase with
  | unknown _ hQuiet => cases hQuiet.line.symm.trans hLine
  | refused _ _ _ _ _ _ _ hQuiet =>
      cases hQuiet.line.symm.trans hLine
  | placed command order life hLives hFate =>
      refine .placed command order life hLives ?_
      cases hFate with
      | sent first cancels hOwn hCommand =>
          cases hOwn.symm.trans hLine
          have hPayload := (payload_of_submissionOf? hCommand).1
          simp [isCancelOf, hPayload] at hCancel
      | waiting _ _ _ hResting =>
          cases hResting.symm.trans hGone
      | cancelled venueOrderId start cancels hTook _ hEarly =>
          rw [hLine] at hTook
          rcases hEarly with ⟨taking, hTaking, hTime⟩
          exact
            .cancelled venueOrderId start _
              (hTook.delivered docket.now) hGone
              ⟨taking, List.mem_append_left _ hTaking, hTime⟩
      | filled venueOrderId start cancels hTook _ hLate hNow =>
          rw [hLine] at hTook
          refine
            .filled venueOrderId start _
              (hTook.delivered docket.now) hGone ?_ hNow
          rw [List.forall_mem_append]
          exact ⟨hLate, by simpa using hNow⟩

------------------------------------------------------------
-- Time
------------------------------------------------------------

theorem wait
    {later : Nat}
    (hPhase : OrderPhase settings id docket)
    (hLater : docket.now ≤ later)
    (hStop :
      later = docket.now ∨
        ∀ timer ∈ docket.timers, later ≤ timer.1) :
    OrderPhase settings id { docket with now := later } := by
  cases hPhase with
  | unknown hOrder hQuiet =>
      exact .unknown hOrder { hQuiet with }
  | refused command occurrence order reason hOrder hRefused
      hApply hQuiet =>
      exact
        .refused command occurrence order reason hOrder hRefused
          hApply { hQuiet with }
  | placed command order life hLives hFate =>
      refine .placed command order life hLives ?_
      cases hFate with
      | sent first cancels hLine hCommand hCancels hTaken hResting
          hTimers hDue =>
          exact
            .sent first cancels hLine hCommand hCancels hTaken
              hResting hTimers hDue
      | waiting venueOrderId start hTook hResting hAwaits =>
          refine .waiting venueOrderId start hTook hResting ?_
          cases hAwaits with
          | waits hTimers hDue hNow =>
              refine .waits hTimers hDue ?_
              rcases hStop with rfl | hStop
              · exact hNow
              · exact
                  hStop
                    (start + settings.fillLatencyMs,
                      settings.fillOf command)
                    (by simp [hTimers])
          | rings hTimers hDue hNow =>
              exact .rings hTimers hDue (hNow.trans hLater)
      | cancelled venueOrderId start cancels hTook hResting
          hEarly =>
          exact
            .cancelled venueOrderId start cancels hTook hResting
              hEarly
      | filled venueOrderId start cancels hTook hResting hLate
          hNow =>
          exact
            .filled venueOrderId start cancels hTook hResting
              hLate (hNow.trans hLater)

theorem due
    {later : Nat}
    {due : List Fill}
    (hPhase : OrderPhase settings id docket)
    (hLater : docket.now ≤ later)
    (hQuiet : docket.due = [])
    (hDue :
      due.Perm
        ((docket.timers.filter fun timer =>
          timer.1 ≤ later).map Prod.snd)) :
    OrderPhase settings id
      { docket with
        now := later
        timers :=
          docket.timers.filter fun timer => ¬timer.1 ≤ later
        due := due } := by
  have hNone :
      docket.timers = [] →
        docket.timers.filter (fun timer => ¬timer.1 ≤ later) =
            [] ∧
          due = [] := by
    intro hTimers
    rw [hTimers] at hDue ⊢
    exact ⟨rfl, hDue.eq_nil⟩
  cases hPhase with
  | unknown hOrder hIdle =>
      have hNone := hNone hIdle.timers
      exact
        .unknown hOrder
          { hIdle with timers := hNone.1, due := hNone.2 }
  | refused command occurrence order reason hOrder hRefused
      hApply hIdle =>
      have hNone := hNone hIdle.timers
      exact
        .refused command occurrence order reason hOrder hRefused
          hApply
          { hIdle with timers := hNone.1, due := hNone.2 }
  | placed command order life hLives hFate =>
      refine .placed command order life hLives ?_
      cases hFate with
      | sent first cancels hLine hCommand hCancels hTaken hResting
          hTimers hDue =>
          have hNone := hNone hTimers
          exact
            .sent first cancels hLine hCommand hCancels hTaken
              hResting hNone.1 hNone.2
      | waiting venueOrderId start hTook hResting hAwaits =>
          refine .waiting venueOrderId start hTook hResting ?_
          cases hAwaits with
          | rings _ hRings =>
              cases hRings.symm.trans hQuiet
          | waits hTimers _ hNow =>
              dsimp only
              rw [hTimers] at hDue ⊢
              by_cases hTime :
                  start + settings.fillLatencyMs ≤ later
              · have hOne : due = [settings.fillOf command] := by
                  simpa [hTime] using hDue
                exact .rings (by simp [hTime]) hOne hTime
              · have hOne : due = [] := by
                  simpa [hTime] using hDue
                have hEarlier := Nat.lt_of_not_le hTime
                exact
                  .waits (by simp [hEarlier]) hOne
                    (Nat.le_of_lt hEarlier)
      | cancelled venueOrderId start cancels hTook hResting
          hEarly =>
          exact
            .cancelled venueOrderId start cancels hTook hResting
              hEarly
      | filled venueOrderId start cancels hTook hResting hLate
          hNow =>
          exact
            .filled venueOrderId start cancels hTook hResting
              hLate (hNow.trans hLater)

theorem filled
    {fill : Fill}
    {rest : List Fill}
    (hPhase : OrderPhase settings id docket)
    (hDue : docket.due = fill :: rest)
    (hResting : docket.isResting = true) :
    OrderPhase settings id
      { docket with
        reported := docket.reported ++ [⟨id, .filled fill⟩]
        isResting := false
        due := rest } := by
  rcases hPhase.of_isResting hResting with
    ⟨command, order, venueOrderId, start, hLives, hTook, hAwaits⟩
  cases hAwaits with
  | waits _ hNone => cases hNone.symm.trans hDue
  | rings hTimers hOne hNow =>
      cases hOne.symm.trans hDue
      refine .placed command order _ (hLives.reports _) ?_
      exact
        .filled venueOrderId start [] hTook rfl (by simp) hNow

theorem lapsed
    {fill : Fill}
    {rest : List Fill}
    (hPhase : OrderPhase settings id docket)
    (hDue : docket.due = fill :: rest)
    (hGone : docket.isResting = false) :
    OrderPhase settings id { docket with due := rest } := by
  cases hPhase with
  | unknown _ hQuiet => cases hQuiet.due.symm.trans hDue
  | refused _ _ _ _ _ _ _ hQuiet =>
      cases hQuiet.due.symm.trans hDue
  | placed command order life hLives hFate =>
      refine .placed command order life hLives ?_
      cases hFate with
      | sent _ _ _ _ _ _ _ _ hNone =>
          cases hNone.symm.trans hDue
      | waiting _ _ _ hResting =>
          cases hResting.symm.trans hGone
      | cancelled venueOrderId start cancels hTook hResting
          hEarly =>
          exact
            .cancelled venueOrderId start cancels hTook hResting
              hEarly
      | filled venueOrderId start cancels hTook hResting hLate
          hNow =>
          exact
            .filled venueOrderId start cancels hTook hResting
              hLate hNow

/- Whatever a beat changes leads from one phase to another. -/
theorem move
    (hPhase : OrderPhase settings id docket)
    (hMove : DocketMove settings id docket next) :
    OrderPhase settings id next := by
  cases hMove with
  | idle => exact hPhase
  | wait later hLater hStop => exact hPhase.wait hLater hStop
  | refused command occurrence order reason hNew hRefused
      hApply =>
      exact hPhase.turnedDown hNew hRefused hApply
  | submitted envelope command order hNew hCommand hApply =>
      exact hPhase.submitted hNew hCommand hApply
  | forwarded envelope order hOrder hOpen hCancel =>
      exact hPhase.forwarded hOrder hOpen hCancel
  | taken event rest order next hReported hOrder hApply =>
      exact hPhase.taken hReported hOrder hApply
  | missed event rest hReported hMissed =>
      rcases hPhase.exists_apply hReported
          fun order hOrder => (hMissed order hOrder).2 with
        ⟨order, next, hOrder, hApply⟩
      rcases (hMissed order hOrder).1 with ⟨e, hRefused⟩
      cases hRefused.symm.trans hApply
  | accepted envelope rest command venueOrderId hLine hCommand =>
      exact hPhase.accepted venueOrderId hLine hCommand
  | cancelled envelope rest hLine hCancel hResting hNone =>
      exact hPhase.cancelled hNone hLine hResting
  | tooLate envelope rest hLine hCancel hGone =>
      exact hPhase.tooLate hLine hCancel hGone
  | due later due hLater hNone hDue =>
      exact hPhase.due hLater hNone hDue
  | filled fill rest hDue hResting =>
      exact hPhase.filled hDue hResting
  | lapsed fill rest hDue hGone => exact hPhase.lapsed hDue hGone

end OrderPhase

end OrderDesk
