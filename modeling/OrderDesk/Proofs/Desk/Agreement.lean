import OrderDesk.Proofs.Desk.Stage

/-
  This file proves that an engine and a paper venue agree,
  whatever their clients ask for, however long messages
  take, and whenever timers fire: no report ever fails to
  fit its order, every order takes one of four courses, and
  the book of the venue holds open orders only.

  Key definitions include:
    * `courses`
    * `FreeOfRejections`
    * `Floor.Agrees`
    * `Floor.Orderly`

  Key theorems include:
    * `Floor.IsQuiet.move`
    * `Floor.Orderly.move`
    * `Floor.Orderly.agrees`
    * `Floor.agrees_play`
-/

namespace OrderDesk

/- The courses that the life of an order can take. -/
def courses : List (List EventKind) :=
  [[.invalid],
    [.denied],
    [.submitted, .accepted, .filled],
    [.submitted, .accepted, .cancelled]]

/- No message says that a report did not fit its order. -/
def FreeOfRejections
    (envelopes : List (Envelope TradingMessage)) : Prop :=
  ∀ envelope ∈ envelopes,
    ∀ rejection,
      envelope.payload ≠ .transitionRejected rejection

namespace Floor

/-
  Engine and venue agree. The engine has not said that a
  report did not fit its order. What it has said about an
  order is the beginning of one of the courses. An order
  that rests at the venue is submitted or accepted at the
  engine; an order that is filled or cancelled at the engine
  does not rest; and one that is filled is filled in full.
-/
structure Agrees
    (floor : Floor) : Prop where
  noRejection : FreeOfRejections floor.published
  course :
    ∀ id,
      ∃ course ∈ courses,
        (eventsAbout id floor.published).map OrderEvent.kind <+:
          course
  resting :
    ∀ id,
      floor.venue.isResting id = true →
        ∃ order,
          floor.engine.blotter.find? id = some order ∧
            (order.state = .submitted ∨ order.state = .accepted)
  closed :
    ∀ id order,
      floor.engine.blotter.find? id = some order →
        (order.state = .filled ∨ order.state = .cancelled) →
          floor.venue.isResting id = false
  filled :
    ∀ id order,
      floor.engine.blotter.find? id = some order →
        order.state = .filled →
          order.filled = order.quantity

end Floor

------------------------------------------------------------
-- What A Stage Says
------------------------------------------------------------

namespace Stage

variable {id : OrderId} {sight : Sight} {order : Order}

/- What was told about an order is the beginning of a course. -/
theorem exists_course
    (hStage : Stage id sight) :
    ∃ course ∈ courses,
      sight.told.map OrderEvent.kind <+: course := by
  cases hStage with
  | unknown _ hTold =>
      rw [hTold]
      exact ⟨[.invalid], by simp [courses], List.nil_prefix⟩
  | refused _ occurrence _ reason _ hRefused hTold =>
      rw [hTold]
      rcases hRefused with rfl | rfl
      · exact ⟨[.invalid], by simp [courses], List.prefix_rfl⟩
      · exact ⟨[.denied], by simp [courses], List.prefix_rfl⟩
  | placed command _ life _ _ _ hLife hStanding =>
      suffices hCourse :
          ∃ course ∈ courses,
            life.map OrderEvent.kind <+: course by
        rcases hCourse with ⟨course, hCourse, hPrefix⟩
        refine ⟨course, hCourse, List.IsPrefix.trans ?_ hPrefix⟩
        rw [← hLife, List.map_append]
        exact List.prefix_append _ _
      cases hStanding with
      | sent =>
          exact
            ⟨[.submitted, .accepted, .filled], by simp [courses],
              ⟨[.accepted, .filled], rfl⟩⟩
      | resting =>
          exact
            ⟨[.submitted, .accepted, .filled], by simp [courses],
              ⟨[.filled], rfl⟩⟩
      | executing =>
          exact
            ⟨[.submitted, .accepted, .filled], by simp [courses],
              ⟨[.filled], rfl⟩⟩
      | filled =>
          exact
            ⟨[.submitted, .accepted, .filled], by simp [courses],
              List.prefix_rfl⟩
      | withdrawn =>
          exact
            ⟨[.submitted, .accepted, .cancelled],
              by simp [courses], List.prefix_rfl⟩

/- An order is in the state that the last event told led to. -/
theorem exists_last
    {command : SubmitOrder}
    {told : List OrderEvent}
    (hTold : told ≠ [])
    (hReplay : (Order.new command).replay told = .ok order) :
    ∃ init last,
      told = init ++ [last] ∧ order.state = last.kind.target := by
  rcases List.eq_nil_or_concat' told with
    hNil | ⟨init, last, rfl⟩
  · exact absurd hNil hTold
  · exact ⟨init, last, rfl, Order.state_of_replay hReplay⟩

/- An order that rests at the venue is open at the engine. -/
theorem state_of_isResting
    (hStage : Stage id sight)
    (hResting : sight.isResting = true) :
    ∃ order,
      sight.order = some order ∧
        (order.state = .submitted ∨ order.state = .accepted) := by
  rcases hStage.of_isResting hResting with
    ⟨command, order, venueOrderId, fill, hOrder, hTold, hReplay,
      hLife, _⟩
  refine ⟨order, hOrder, ?_⟩
  rcases exists_last hTold hReplay with
    ⟨init, last, hLast, hState⟩
  have hMem : last ∈ sight.told ++ sight.reported := by
    simp [hLast]
  rw [hLife] at hMem
  rw [hState]
  simp only [List.mem_cons, List.not_mem_nil, or_false] at hMem
  rcases hMem with rfl | rfl
  · exact Or.inl rfl
  · exact Or.inr rfl

/- An order that is done at the engine does not rest. -/
theorem isResting_of_state
    (hStage : Stage id sight)
    (hOrder : sight.order = some order)
    (hState :
      order.state = .filled ∨ order.state = .cancelled) :
    sight.isResting = false := by
  rw [← Bool.not_eq_true]
  intro hResting
  rcases hStage.state_of_isResting hResting with
    ⟨other, hOther, hOpen⟩
  cases hOther.symm.trans hOrder
  rcases hState with hState | hState <;>
    rcases hOpen with hOpen | hOpen <;>
      cases hState.symm.trans hOpen

/- An order that went through all of its course is filled in full. -/
theorem filled_of_replay
    {command : SubmitOrder}
    {venueOrderId : String}
    {fill : Fill}
    (hReplay :
      (Order.new command).replay
          [⟨id, .submitted⟩, ⟨id, .accepted venueOrderId⟩,
            ⟨id, .filled fill⟩] =
        .ok order) :
    order.filled = fill.quantity := by
  rcases Order.exists_of_replay_cons hReplay with
    ⟨first, hFirst, hReplay⟩
  rcases Order.exists_of_replay_cons hReplay with
    ⟨second, hSecond, hReplay⟩
  rcases Order.exists_of_replay_cons hReplay with
    ⟨third, hThird, hReplay⟩
  cases hReplay
  have hZero : first.filled = 0 := Order.filled_of_apply hFirst
  have hSame : second.filled = first.filled :=
    Order.filled_of_apply hSecond
  have hSum : second.filled.add? fill.quantity = some order.filled :=
    Order.filled_of_apply hThird
  rw [hSame, hZero, Decimal.zero_add?] at hSum
  exact (Option.some.inj hSum).symm

/- The engine has taken all events of an order that is filled. -/
theorem told_eq_of_filled
    {venueOrderId : String}
    {fill : Fill}
    {init reported : List OrderEvent}
    {last : OrderEvent}
    (hLife :
      init ++ [last] ++ reported =
        [⟨id, .submitted⟩, ⟨id, .accepted venueOrderId⟩,
          ⟨id, .filled fill⟩])
    (hLast : last.kind.target = .filled) :
    init ++ [last] =
      [⟨id, .submitted⟩, ⟨id, .accepted venueOrderId⟩,
        ⟨id, .filled fill⟩] := by
  rcases init with _ | ⟨first, _ | ⟨second, init⟩⟩
  · cases hLife
    cases hLast
  · cases hLife
    cases hLast
  · rcases init with _ | ⟨third, init⟩
    · cases hLife
      rfl
    · simp at hLife

/- An order that is filled at the engine is filled in full. -/
theorem filled_eq_quantity
    (hStage : Stage id sight)
    (hOrder : sight.order = some order)
    (hState : order.state = .filled) :
    order.filled = order.quantity := by
  cases hStage with
  | unknown hNone => cases hNone.symm.trans hOrder
  | refused command occurrence other reason hOther hRefused hTold
      hReplay =>
      cases hOther.symm.trans hOrder
      rw [hTold, ← List.nil_append [_]] at hReplay
      have hTarget := Order.state_of_replay hReplay
      rcases hRefused with rfl | rfl
      · cases hTarget.symm.trans hState
      · cases hTarget.symm.trans hState
  | placed command other life hOther hTold hReplay hLife
      hStanding =>
      cases hOther.symm.trans hOrder
      rcases exists_last hTold hReplay with
        ⟨init, last, hLast, hTarget⟩
      have hMem : last ∈ sight.told ++ sight.reported := by
        simp [hLast]
      have hKind : last.kind.target = .filled :=
        hTarget.symm.trans hState
      rw [hLife] at hMem
      cases hStanding with
      | sent =>
          cases List.mem_singleton.mp hMem
          cases hKind
      | resting venueOrderId =>
          simp only [List.mem_cons, List.not_mem_nil, or_false]
            at hMem
          rcases hMem with rfl | rfl <;> cases hKind
      | executing venueOrderId =>
          simp only [List.mem_cons, List.not_mem_nil, or_false]
            at hMem
          rcases hMem with rfl | rfl <;> cases hKind
      | filled venueOrderId fill hQuantity =>
          rw [hLast] at hLife hReplay
          rw [told_eq_of_filled hLife hKind] at hReplay
          have hTerms := Order.terms_of_replay hReplay
          rw [filled_of_replay hReplay, hQuantity, hTerms.2]
          rfl
      | withdrawn venueOrderId =>
          simp only [List.mem_cons, List.not_mem_nil, or_false]
            at hMem
          rcases hMem with rfl | rfl | rfl <;> cases hKind

end Stage

------------------------------------------------------------
-- Messages Under Way
------------------------------------------------------------

theorem FreeOfRejections.append
    {first second : List (Envelope TradingMessage)}
    (hFirst : FreeOfRejections first)
    (hSecond : FreeOfRejections second) :
    FreeOfRejections (first ++ second) := by
  intro envelope hEnvelope
  rcases List.mem_append.mp hEnvelope with hMem | hMem
  · exact hFirst envelope hMem
  · exact hSecond envelope hMem

theorem FreeOfRejections.nil :
    FreeOfRejections [] := by
  intro envelope hEnvelope
  cases hEnvelope

/- A single message that is no rejection. -/
theorem FreeOfRejections.singleton
    {envelope : Envelope TradingMessage}
    (hPayload :
      ∀ rejection,
        envelope.payload ≠ .transitionRejected rejection) :
    FreeOfRejections [envelope] := by
  intro other hOther
  cases List.mem_singleton.mp hOther
  exact hPayload

namespace Floor

variable {floor : Floor}

/-
  The venue reports to the engine, and no message on the
  floor says that a report did not fit its order.
-/
structure IsQuiet
    (floor : Floor) : Prop where
  connected : floor.venue.connected = true
  inbox : FreeOfRejections floor.inbox
  reports : FreeOfRejections floor.reports
  published : FreeOfRejections floor.published

theorem IsQuiet.turnWindow
    (hQuiet : floor.IsQuiet)
    (turn :
      Window (Envelope TradingMessage) →
        List (Envelope TradingMessage) ×
          Window (Envelope TradingMessage)) :
    (floor.turnWindow turn).IsQuiet := by
  rcases turnWindow_eq floor turn with ⟨window, outbox, hTurn⟩
  rw [hTurn]
  exact
    ⟨hQuiet.connected, hQuiet.inbox, hQuiet.reports,
      hQuiet.published⟩

theorem IsQuiet.enqueue
    {envelope : Envelope TradingMessage}
    (hQuiet : floor.IsQuiet)
    (hPayload :
      ∀ rejection,
        envelope.payload ≠ .transitionRejected rejection) :
    (floor.enqueue envelope).IsQuiet where
  connected := hQuiet.connected
  inbox := hQuiet.inbox.append (.singleton hPayload)
  reports := hQuiet.reports
  published := hQuiet.published

theorem IsQuiet.arrive
    (hQuiet : floor.IsQuiet) :
    floor.arrive.IsQuiet := by
  unfold Floor.arrive
  cases hReports : floor.reports with
  | nil => exact hQuiet
  | cons envelope rest =>
      have hAll := hQuiet.reports
      rw [hReports] at hAll
      have hRest :
          ({ floor with reports := rest } : Floor).IsQuiet :=
        ⟨hQuiet.connected, hQuiet.inbox,
          fun other hOther =>
            hAll other (List.mem_cons_of_mem _ hOther),
          hQuiet.published⟩
      exact hRest.enqueue (hAll envelope List.mem_cons_self)

/-
  A report that the engine is about to take fits its order,
  because the order is at one of its stages.
-/
theorem exists_apply_of_inbox
    {stamp : Stamp}
    {envelope : Envelope TradingMessage}
    {rest : List (Envelope TradingMessage)}
    {event : OrderEvent}
    (hStage : Stage event.orderId (floor.sight event.orderId))
    (hAccountable : floor.Accountable (.serve stamp))
    (hInbox : floor.inbox = envelope :: rest)
    (hEvent : envelope.payload = .orderEvent event) :
    ∃ order next,
      floor.engine.blotter.find? event.orderId = some order ∧
        order.apply event = .ok next := by
  have hAbout :
      eventAbout? event.orderId envelope = some event := by
    rw [eventAbout?_orderEvent _ hEvent, if_pos rfl]
  have hReported := reported_of_inbox event.orderId hInbox
  rw [hAbout] at hReported
  apply hStage.exists_apply hReported
  intro order hOrder
  exact
    accountable_of_eventAbout? hAccountable hInbox hAbout hOrder

/- The engine takes its oldest message, and is told nothing wrong. -/
theorem IsQuiet.serve
    {stamp : Stamp}
    (hQuiet : floor.IsQuiet)
    (hStage : ∀ id, Stage id (floor.sight id))
    (hAccountable : floor.Accountable (.serve stamp)) :
    (floor.serve stamp).IsQuiet := by
  unfold Floor.serve
  cases hInbox : floor.inbox with
  | nil => exact hQuiet
  | cons envelope rest =>
      rcases Engine.exists_reaction stamp floor.engine envelope
        with ⟨step, hHandle, hReaction⟩
      simp only [hHandle]
      have hAll := hQuiet.inbox
      rw [hInbox] at hAll
      have hEvents : FreeOfRejections step.events := by
        intro sent hSent rejection hPayload
        rcases hReaction.of_transitionRejected_mem hSent
            hPayload with
          hTold | ⟨event, order, e, hEvent, hOrder, hRefused⟩
        · exact hAll envelope List.mem_cons_self _ hTold
        · rcases exists_apply_of_inbox (hStage event.orderId)
              hAccountable hInbox hEvent with
            ⟨other, next, hOther, hApply⟩
          cases hOther.symm.trans hOrder
          cases hApply.symm.trans hRefused
      unfold followEngine
      rcases foldl_command_eq step.commands
          { floor with
            inbox := rest
            engine := step.engine
            published := floor.published ++ step.events } with
        ⟨window, outbox, hCommands⟩
      rw [hCommands]
      exact
        ⟨hQuiet.connected,
          fun other hOther =>
            hAll other (List.mem_cons_of_mem _ hOther),
          hQuiet.reports, hQuiet.published.append hEvents⟩

theorem IsQuiet.deliver
    (hQuiet : floor.IsQuiet)
    (stamp : Stamp) :
    (floor.deliver stamp).IsQuiet := by
  unfold Floor.deliver
  cases hOutbox : floor.outbox with
  | nil => exact hQuiet
  | cons envelope rest =>
      have hReaction :=
        PaperVenue.reaction_handle stamp envelope
          hQuiet.connected
      refine
        ⟨hReaction.connected.trans hQuiet.connected, hQuiet.inbox,
          hQuiet.reports.append ?_, hQuiet.published⟩
      intro report hReport rejection hPayload
      rcases hReaction.payload_cases hReport with
        ⟨event, hSaid, _⟩ | ⟨refusal, hSaid⟩
      · cases hSaid.symm.trans hPayload
      · cases hSaid.symm.trans hPayload

theorem IsQuiet.execute
    (hQuiet : floor.IsQuiet)
    (fill : PendingFill) :
    (floor.execute fill).IsQuiet := by
  unfold Floor.execute
  split
  · split
    · exact
        ⟨hQuiet.connected, hQuiet.inbox, hQuiet.reports,
          hQuiet.published⟩
    · exact
        ⟨hQuiet.connected, hQuiet.inbox, hQuiet.reports,
          hQuiet.published⟩
  · exact hQuiet

theorem IsQuiet.report
    (hQuiet : floor.IsQuiet)
    (stamp : Stamp)
    (fill : PendingFill) :
    (floor.report stamp fill).IsQuiet := by
  unfold Floor.report
  split
  · refine
      ⟨hQuiet.connected, hQuiet.inbox,
        hQuiet.reports.append (.singleton ?_),
        hQuiet.published⟩
    simp [Envelope.event, Envelope.make]
  · exact hQuiet

/- The floor stays quiet as long as fills are accountable. -/
theorem IsQuiet.move
    {move : Move}
    (hQuiet : floor.IsQuiet)
    (hStage : ∀ id, Stage id (floor.sight id))
    (hAccountable : floor.Accountable move) :
    (floor.move move).IsQuiet := by
  cases move with
  | submit header command => exact hQuiet.enqueue (by simp)
  | cancel header cancel => exact hQuiet.enqueue (by simp)
  | arrive => exact hQuiet.arrive
  | serve stamp => exact hQuiet.serve hStage hAccountable
  | deliver stamp => exact hQuiet.deliver stamp
  | execute fill => exact hQuiet.execute fill
  | report stamp fill => exact hQuiet.report stamp fill
  | start => exact hQuiet.turnWindow _
  | stop => exact hQuiet.turnWindow _
  | roll => exact hQuiet.turnWindow _
  | pause reason =>
      exact
        ⟨hQuiet.connected, hQuiet.inbox, hQuiet.reports,
          hQuiet.published⟩
  | resume =>
      exact
        ⟨hQuiet.connected, hQuiet.inbox, hQuiet.reports,
          hQuiet.published⟩

------------------------------------------------------------
-- The Invariant
------------------------------------------------------------

/-
  What every move preserves: the floor is quiet, and every
  order is at one of its stages.
-/
structure Orderly
    (floor : Floor) : Prop where
  quiet : floor.IsQuiet
  stage : ∀ id, Stage id (floor.sight id)

theorem orderly_new
    (gate : RiskGate)
    (settings : PaperSettings)
    (limit : Option { limit : Nat // 0 < limit }) :
    (Floor.new gate settings limit).Orderly where
  quiet := ⟨rfl, .nil, .nil, .nil⟩
  stage := by
    intro id
    have hWaiting :
        (Floor.new gate settings limit).waiting = [] := by
      cases limit <;> rfl
    refine .unknown rfl rfl ⟨?_, rfl, rfl, rfl, rfl⟩
    change
      submissionsOf id
          ([] ++ (Floor.new gate settings limit).waiting) =
        []
    rw [hWaiting]
    rfl

/- An orderly floor stays orderly. -/
theorem Orderly.move
    {move : Move}
    (hOrderly : floor.Orderly)
    (hAccountable : floor.Accountable move) :
    (floor.move move).Orderly where
  quiet := hOrderly.quiet.move hOrderly.stage hAccountable
  stage := by
    intro id
    exact
      (hOrderly.stage id).move
        (sightMove move id hOrderly.quiet.connected hAccountable)

theorem Orderly.play
    {moves : List Move}
    (hOrderly : floor.Orderly)
    (hAccountable : floor.AllAccountable moves) :
    (floor.play moves).Orderly := by
  induction moves generalizing floor with
  | nil => exact hOrderly
  | cons move moves ih =>
      exact ih (hOrderly.move hAccountable.1) hAccountable.2

/- Engine and venue agree on an orderly floor. -/
theorem Orderly.agrees
    (hOrderly : floor.Orderly) :
    floor.Agrees where
  noRejection := hOrderly.quiet.published
  course := by
    intro id
    exact (hOrderly.stage id).exists_course
  resting := by
    intro id hResting
    exact (hOrderly.stage id).state_of_isResting hResting
  closed := by
    intro id order hOrder hState
    exact (hOrderly.stage id).isResting_of_state hOrder hState
  filled := by
    intro id order hOrder hState
    exact (hOrderly.stage id).filled_eq_quantity hOrder hState

/-
  Whatever clients ask for, however long messages take, and
  whenever timers fire, an engine and a paper venue that
  start with nothing agree, provided that orders can account
  for the fills that are reported.
-/
theorem agrees_play
    (gate : RiskGate)
    (settings : PaperSettings)
    (limit : Option { limit : Nat // 0 < limit })
    (moves : List Move)
    (hAccountable :
      (Floor.new gate settings limit).AllAccountable moves) :
    ((Floor.new gate settings limit).play moves).Agrees :=
  ((orderly_new gate settings limit).play hAccountable).agrees

/- A venue that fills orders after a second. -/
def slowVenue : PaperSettings where
  fillLatencyMs := 1000
  referencePrice := Decimal.ofNat 100 Decimal.hundred_lt_twoTo

/- A header for every request. -/
def fixedHeader : Header :=
  .stamped EngineRun.fixedStamp .command none

/- All of the two units, at their own price. -/
def allUnits : PendingFill :=
  ⟨EngineRun.twoUnits.orderId,
    ⟨EngineRun.twoUnits.quantity,
      Decimal.ofNat 100 Decimal.hundred_lt_twoTo⟩⟩

/-
  A cancel that has to wait in the window, until the timer
  has fired, and reaches the venue before the report of the
  fill leaves it.
-/
def crossing : List Move :=
  [.start,
    .submit fixedHeader EngineRun.twoUnits,
    .serve EngineRun.fixedStamp,
    .deliver EngineRun.fixedStamp,
    .arrive,
    .serve EngineRun.fixedStamp,
    .cancel fixedHeader ⟨EngineRun.twoUnits.orderId⟩,
    .serve EngineRun.fixedStamp,
    .execute allUnits,
    .roll,
    .deliver EngineRun.fixedStamp,
    .report EngineRun.fixedStamp allUnits,
    .arrive,
    .serve EngineRun.fixedStamp,
    .arrive,
    .serve EngineRun.fixedStamp]

/- Engine and venue agree when a cancel crosses a fill. -/
theorem agrees_play_crossing :
    (Floor.new EngineRun.hundredGate slowVenue
        (some ⟨1, by decide⟩)).AllAccountable crossing ∧
      ((Floor.new EngineRun.hundredGate slowVenue
          (some ⟨1, by decide⟩)).play crossing).Agrees ∧
        (eventsAbout EngineRun.twoUnits.orderId
            ((Floor.new EngineRun.hundredGate slowVenue
              (some ⟨1, by decide⟩)).play
                crossing).published).map
            OrderEvent.kind =
          [.submitted, .accepted, .filled] := by
  have hAccountable :
      (Floor.new EngineRun.hundredGate slowVenue
        (some ⟨1, by decide⟩)).AllAccountable crossing := by
    decide +kernel
  exact
    ⟨hAccountable,
      agrees_play EngineRun.hundredGate slowVenue
        (some ⟨1, by decide⟩) crossing hAccountable,
      by decide +kernel⟩

end Floor

end OrderDesk
