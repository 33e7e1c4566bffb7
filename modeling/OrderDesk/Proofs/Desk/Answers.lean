import OrderDesk.Proofs.Desk.Agreement

/-
  This file proves that every cancel gets one answer. The
  engine answers a cancel itself or leaves it to the venue,
  and the venue refuses it or withdraws the order. So a
  cancel that the engine has taken is on its way to the
  venue, or its answer is on its way back, or its answer was
  published.

  What is counted here neither grows nor shrinks on the
  floor, but for the cancels that the engine takes.

  Key definitions include:
    * `isRefusalOf`
    * `isWithdrawalOf`
    * `Floor.served`
    * `Floor.cancelsKnown`
    * `Floor.AnswersCancels`

  Key theorems include:
    * `Engine.Reaction.countP_answers`
    * `PaperVenue.Reaction.countP_answers`
    * `Floor.cancelsKnown_move`
    * `Floor.answersCancels_play`
-/

namespace OrderDesk

------------------------------------------------------------
-- Cancels And Answers
------------------------------------------------------------

/- A message says that a cancel of the given order is refused. -/
def isRefusalOf
    (id : OrderId)
    (envelope : Envelope TradingMessage) : Bool :=
  match envelope.payload with
  | .cancelRejected refusal => refusal.orderId = id
  | _ => false

/- A message says that the given order is cancelled. -/
def isWithdrawalOf
    (id : OrderId)
    (envelope : Envelope TradingMessage) : Bool :=
  match envelope.payload with
  | .orderEvent event => event = ⟨id, .cancelled⟩
  | _ => false

/- A message answers a cancel of the given order. -/
def isAnswerOf
    (id : OrderId)
    (envelope : Envelope TradingMessage) : Bool :=
  isRefusalOf id envelope || isWithdrawalOf id envelope

/- No message both refuses a cancel and says that it was done. -/
theorem countP_isAnswerOf
    (id : OrderId)
    (envelopes : List (Envelope TradingMessage)) :
    envelopes.countP (isAnswerOf id) =
      envelopes.countP (isRefusalOf id) +
        envelopes.countP (isWithdrawalOf id) := by
  induction envelopes with
  | nil => rfl
  | cons envelope envelopes ih =>
      have hOne :
          (if isAnswerOf id envelope then 1 else 0) =
            (if isRefusalOf id envelope then 1 else 0) +
              if isWithdrawalOf id envelope then 1 else 0 := by
        unfold isAnswerOf isRefusalOf isWithdrawalOf
        cases envelope.payload <;> simp
      rw [List.countP_cons, List.countP_cons, List.countP_cons, ih,
        hOne]
      omega

namespace Engine

variable {stamp : Stamp} {engine : Engine}
variable {envelope : Envelope TradingMessage} {step : EngineStep}

theorem admission_ne_cancelled
    (engine : Engine)
    (command : SubmitOrder) :
    (engine.admission command).1 ≠ .cancelled := by
  intro hCancelled
  rcases engine.admission_cases command with
    ⟨hAdmitted, _⟩ | ⟨reason, hRefused | hRefused⟩
  · cases hAdmitted.symm.trans hCancelled
  · cases hRefused.symm.trans hCancelled
  · cases hRefused.symm.trans hCancelled

/-
  The engine answers a cancel or sends it on, and it passes
  on every answer that it gets, provided that reports fit
  their orders.
-/
theorem Reaction.countP_answers
    (hReaction : Reaction stamp engine envelope step)
    (id : OrderId)
    (hFits :
      ∀ event,
        envelope.payload = .orderEvent event →
          ∃ order next,
            engine.blotter.find? event.orderId = some order ∧
              order.apply event = .ok next) :
    step.events.countP (isAnswerOf id) +
        step.commands.countP (isCancelOf id) =
      [envelope].countP (isCancelOf id) +
        [envelope].countP (isAnswerOf id) := by
  cases hReaction with
  | duplicate command order hPayload =>
      simp [isAnswerOf, isRefusalOf, isWithdrawalOf, isCancelOf,
        hPayload]
  | opened command hPayload hNew =>
      have hFirst := engine.admission_ne_cancelled command
      have hCommands :
          (if (engine.admission command).1 = .submitted then
              [(⟨envelope.header, .submitOrder command⟩ :
                Envelope TradingMessage)]
            else
              []).countP (isCancelOf id) =
            0 := by
        split <;> simp [isCancelOf]
      rw [hCommands]
      simp [isAnswerOf, isRefusalOf, isWithdrawalOf, isCancelOf,
        hPayload, hFirst, publication, Envelope.event,
        Envelope.make]
  | cancelRefused cancel refusal hPayload hRefusal =>
      have hId := orderId_of_cancelRefusal? hRefusal
      simp [isAnswerOf, isRefusalOf, isWithdrawalOf, isCancelOf,
        hPayload, hId, Envelope.event, Envelope.make,
        List.countP_cons]
  | cancelForwarded cancel hPayload hRefusal =>
      simp [isAnswerOf, isRefusalOf, isWithdrawalOf, isCancelOf,
        hPayload, List.countP_cons]
  | reportUnknown event hPayload hUnknown =>
      rcases hFits event hPayload with ⟨order, next, hOrder, _⟩
      cases hUnknown.symm.trans hOrder
  | reportApplied event order next hPayload hOrder hApply =>
      simp [isAnswerOf, isRefusalOf, isWithdrawalOf, isCancelOf,
        hPayload, publication, Envelope.event, Envelope.make,
        List.countP_cons]
  | reportRefused event order e hPayload hOrder hApply =>
      rcases hFits event hPayload with ⟨other, next, hOther, hNext⟩
      cases hOther.symm.trans hOrder
      cases hNext.symm.trans hApply
  | cancelRejectionPassed rejection hPayload =>
      simp [isCancelOf, hPayload, List.countP_cons]
  | transitionRejectionPassed rejection hPayload =>
      simp [isCancelOf, hPayload, List.countP_cons]

end Engine

namespace PaperVenue

/- The venue answers every cancel, and nothing else. -/
theorem Reaction.countP_answers
    {stamp : Stamp}
    {venue : PaperVenue}
    {envelope : Envelope TradingMessage}
    {step : VenueStep}
    (hReaction : Reaction stamp venue envelope step)
    (id : OrderId) :
    step.reports.countP (isAnswerOf id) =
      [envelope].countP (isCancelOf id) := by
  cases hReaction with
  | accepted command hPayload =>
      simp [isAnswerOf, isRefusalOf, isWithdrawalOf, isCancelOf,
        hPayload, Envelope.response]
  | cancelled cancel hPayload =>
      simp [isAnswerOf, isRefusalOf, isWithdrawalOf, isCancelOf,
        hPayload, Envelope.response, List.countP_cons]
  | cancelRefused cancel reason hPayload =>
      simp [isAnswerOf, isRefusalOf, isWithdrawalOf, isCancelOf,
        hPayload, Envelope.response, List.countP_cons]
  | ignored _ hNoCancel =>
      have hNone : isCancelOf id envelope = false := by
        unfold isCancelOf
        cases hKind : envelope.payload with
        | cancelOrder cancel => exact absurd hKind (hNoCancel cancel)
        | _ => rfl
      simp [hNone]

end PaperVenue

namespace Floor

variable {floor : Floor} {id : OrderId}

------------------------------------------------------------
-- The Cancels That Are Known
------------------------------------------------------------

/- The messages that the engine takes in the course of moves. -/
def served :
    Floor → List Move → List (Envelope TradingMessage)
| _, [] => []
| floor, move :: rest =>
    (floor.served? move).toList ++ (floor.move move).served rest

/-
  The cancels of an order that were answered, or are on
  their way to the venue, or whose answer is on its way back.
-/
def cancelsKnown
    (floor : Floor)
    (id : OrderId) : Nat :=
  floor.published.countP (isAnswerOf id) +
    (floor.outbox ++ floor.waiting).countP (isCancelOf id) +
      (floor.inbox ++ floor.reports).countP (isAnswerOf id)

theorem cancelsKnown_new
    (gate : RiskGate)
    (settings : PaperSettings)
    (limit : Option { limit : Nat // 0 < limit })
    (id : OrderId) :
    (Floor.new gate settings limit).cancelsKnown id = 0 := by
  cases limit <;> rfl

theorem cancelsKnown_turnWindow
    {turn :
      Window (Envelope TradingMessage) →
        List (Envelope TradingMessage) ×
          Window (Envelope TradingMessage)}
    (floor : Floor)
    (id : OrderId)
    (hFifo :
      ∀ window,
        (turn window).1 ++ (turn window).2.buffer =
          window.buffer) :
    (floor.turnWindow turn).cancelsKnown id =
      floor.cancelsKnown id := by
  have hOutbox := outbox_waiting_turnWindow floor hFifo
  rcases turnWindow_eq floor turn with ⟨window, outbox, hTurn⟩
  rw [hTurn] at hOutbox ⊢
  simp only [cancelsKnown, hOutbox]

theorem cancelsKnown_enqueue
    {envelope : Envelope TradingMessage}
    (floor : Floor)
    (hAnswer : isAnswerOf id envelope = false) :
    (floor.enqueue envelope).cancelsKnown id =
      floor.cancelsKnown id := by
  simp [cancelsKnown, enqueue, waiting, hAnswer]

theorem cancelsKnown_arrive
    (floor : Floor)
    (id : OrderId) :
    floor.arrive.cancelsKnown id = floor.cancelsKnown id := by
  unfold arrive
  cases hReports : floor.reports with
  | nil => rfl
  | cons envelope rest =>
      simp [cancelsKnown, enqueue, waiting, hReports]

theorem cancelsKnown_followEngine
    (floor : Floor)
    (step : EngineStep)
    (id : OrderId) :
    (floor.followEngine step).cancelsKnown id =
      floor.cancelsKnown id +
        (step.events.countP (isAnswerOf id) +
          step.commands.countP (isCancelOf id)) := by
  have hOutbox :=
    outbox_waiting_foldl_command step.commands
      { floor with
        engine := step.engine
        published := floor.published ++ step.events }
  unfold followEngine
  rcases foldl_command_eq step.commands
      { floor with
        engine := step.engine
        published := floor.published ++ step.events } with
    ⟨window, outbox, hCommands⟩
  rw [hCommands] at hOutbox ⊢
  simp only [cancelsKnown, hOutbox, List.countP_append]
  dsimp only [waiting]
  omega

theorem cancelsKnown_serve
    {stamp : Stamp}
    (hStage : ∀ id, Stage id (floor.sight id))
    (hAccountable : floor.Accountable (.serve stamp))
    (id : OrderId) :
    (floor.serve stamp).cancelsKnown id =
      floor.cancelsKnown id +
        (floor.served? (.serve stamp)).toList.countP
          (isCancelOf id) := by
  unfold serve served?
  cases hInbox : floor.inbox with
  | nil => rfl
  | cons envelope rest =>
      rcases Engine.exists_reaction stamp floor.engine envelope
        with ⟨step, hHandle, hReaction⟩
      have hAnswers := hReaction.countP_answers id fun event hEvent =>
        exists_apply_of_inbox (hStage event.orderId) hAccountable
          hInbox hEvent
      -- An answer leaves the inbox and is published in the same move.
      have hTaken :
          { floor with inbox := rest }.cancelsKnown id +
              [envelope].countP (isAnswerOf id) =
            floor.cancelsKnown id := by
        simp only [cancelsKnown, hInbox, List.countP_append,
          List.countP_cons, List.countP_nil]
        dsimp only [waiting]
        omega
      simp only [hHandle]
      rw [cancelsKnown_followEngine]
      dsimp only [List.head?_cons, Option.toList_some]
      omega

theorem cancelsKnown_deliver
    (stamp : Stamp)
    (id : OrderId)
    (hConnected : floor.venue.connected = true) :
    (floor.deliver stamp).cancelsKnown id =
      floor.cancelsKnown id := by
  unfold deliver
  cases hOutbox : floor.outbox with
  | nil => rfl
  | cons envelope rest =>
      have hReaction :=
        PaperVenue.reaction_handle stamp envelope hConnected
      have hAnswers := hReaction.countP_answers id
      simp only [cancelsKnown, followVenue, hOutbox,
        List.countP_append, List.countP_cons, List.countP_nil]
        at hAnswers ⊢
      dsimp only [waiting]
      omega

theorem cancelsKnown_execute
    (floor : Floor)
    (fill : PendingFill)
    (id : OrderId) :
    (floor.execute fill).cancelsKnown id =
      floor.cancelsKnown id := by
  unfold execute
  split
  · split <;> rfl
  · rfl

theorem cancelsKnown_report
    (floor : Floor)
    (stamp : Stamp)
    (fill : PendingFill)
    (id : OrderId) :
    (floor.report stamp fill).cancelsKnown id =
      floor.cancelsKnown id := by
  unfold report
  split
  · simp [cancelsKnown, waiting, isAnswerOf, isRefusalOf,
      isWithdrawalOf, Envelope.event, Envelope.make]
  · rfl

/-
  A cancel that the engine takes becomes known. Nothing else
  changes how many are.
-/
theorem cancelsKnown_move
    {move : Move}
    (hOrderly : floor.Orderly)
    (hAccountable : floor.Accountable move)
    (id : OrderId) :
    (floor.move move).cancelsKnown id =
      floor.cancelsKnown id +
        (floor.served? move).toList.countP (isCancelOf id) := by
  cases move with
  | submit header command => exact cancelsKnown_enqueue floor rfl
  | cancel header cancel => exact cancelsKnown_enqueue floor rfl
  | arrive => exact cancelsKnown_arrive floor id
  | serve stamp =>
      exact cancelsKnown_serve hOrderly.stage hAccountable id
  | deliver stamp =>
      exact cancelsKnown_deliver stamp id hOrderly.quiet.connected
  | execute fill => exact cancelsKnown_execute floor fill id
  | report stamp fill =>
      exact cancelsKnown_report floor stamp fill id
  | start =>
      exact
        cancelsKnown_turnWindow floor id
          Window.start_fst_append_buffer
  | stop => exact cancelsKnown_turnWindow floor id fun _ => rfl
  | roll =>
      exact
        cancelsKnown_turnWindow floor id
          Window.roll_fst_append_buffer
  | pause reason => rfl
  | resume => rfl

/- All cancels that the engine takes become known. -/
theorem cancelsKnown_play
    {moves : List Move}
    (hOrderly : floor.Orderly)
    (hAccountable : floor.AllAccountable moves)
    (id : OrderId) :
    (floor.play moves).cancelsKnown id =
      floor.cancelsKnown id +
        (floor.served moves).countP (isCancelOf id) := by
  induction moves generalizing floor with
  | nil => rfl
  | cons move moves ih =>
      have hRest :=
        ih (hOrderly.move hAccountable.1) hAccountable.2
      rw [cancelsKnown_move hOrderly hAccountable.1] at hRest
      rw [served, List.countP_append, ← Nat.add_assoc]
      exact hRest

------------------------------------------------------------
-- One Answer
------------------------------------------------------------

/-
  Every cancel among the messages that were taken gets one
  answer. Of the cancels of an order, some were answered by
  a refusal and some because the order was cancelled; the
  others are on their way to the venue, or their answer is
  on its way back. When neither is on its way, all of them
  were answered, and none twice.
-/
structure AnswersCancels
    (floor : Floor)
    (taken : List (Envelope TradingMessage)) : Prop where
  balance :
    ∀ id,
      taken.countP (isCancelOf id) =
        floor.published.countP (isRefusalOf id) +
          floor.published.countP (isWithdrawalOf id) +
            (floor.outbox ++ floor.waiting).countP
              (isCancelOf id) +
              ((floor.inbox ++ floor.reports).countP
                  (isRefusalOf id) +
                (floor.inbox ++ floor.reports).countP
                  (isWithdrawalOf id))
  settled :
    ∀ id,
      (∀ envelope ∈ floor.outbox ++ floor.waiting,
        isCancelOf id envelope = false) →
        (∀ envelope ∈ floor.inbox ++ floor.reports,
          isAnswerOf id envelope = false) →
          taken.countP (isCancelOf id) =
            floor.published.countP (isRefusalOf id) +
              floor.published.countP (isWithdrawalOf id)

/-
  Whatever clients ask for, however long messages take, and
  whenever timers fire, an engine and a paper venue that
  start with nothing give one answer to every cancel,
  provided that orders can account for the fills that are
  reported.
-/
theorem answersCancels_play
    (gate : RiskGate)
    (settings : PaperSettings)
    (limit : Option { limit : Nat // 0 < limit })
    (moves : List Move)
    (hAccountable :
      (Floor.new gate settings limit).AllAccountable moves) :
    ((Floor.new gate settings limit).play moves).AnswersCancels
      ((Floor.new gate settings limit).served moves) := by
  have hKnown :
      ∀ id,
        ((Floor.new gate settings limit).play moves).cancelsKnown
            id =
          ((Floor.new gate settings limit).served moves).countP
            (isCancelOf id) := by
    intro id
    have hPlay :=
      cancelsKnown_play (orderly_new gate settings limit)
        hAccountable id
    rw [cancelsKnown_new, Nat.zero_add] at hPlay
    exact hPlay
  constructor
  · intro id
    rw [← hKnown, cancelsKnown, countP_isAnswerOf,
      countP_isAnswerOf]
  · intro id hCommands hReports
    have hNoCancel :=
      List.countP_eq_zero.mpr fun envelope hEnvelope =>
        Bool.eq_false_iff.mp (hCommands envelope hEnvelope)
    have hNoAnswer :=
      List.countP_eq_zero.mpr fun envelope hEnvelope =>
        Bool.eq_false_iff.mp (hReports envelope hEnvelope)
    rw [← hKnown, cancelsKnown, hNoCancel, hNoAnswer,
      countP_isAnswerOf]
    rfl

/-
  A cancel that comes before its order, and two that come
  after it. The answer to the last one is left on its way.
-/
def cancelledThrice : List Move :=
  [.cancel fixedHeader ⟨EngineRun.twoUnits.orderId⟩,
    .serve EngineRun.fixedStamp,
    .submit fixedHeader EngineRun.twoUnits,
    .serve EngineRun.fixedStamp,
    .cancel fixedHeader ⟨EngineRun.twoUnits.orderId⟩,
    .serve EngineRun.fixedStamp,
    .cancel fixedHeader ⟨EngineRun.twoUnits.orderId⟩,
    .serve EngineRun.fixedStamp,
    .deliver EngineRun.fixedStamp,
    .deliver EngineRun.fixedStamp,
    .deliver EngineRun.fixedStamp,
    .arrive,
    .serve EngineRun.fixedStamp,
    .arrive,
    .serve EngineRun.fixedStamp]

/- The engine, the order and the venue answer one cancel each. -/
theorem answersCancels_play_cancelledThrice :
    (Floor.new EngineRun.hundredGate slowVenue none).AllAccountable
        cancelledThrice ∧
      ((Floor.new EngineRun.hundredGate slowVenue none).play
          cancelledThrice).AnswersCancels
        ((Floor.new EngineRun.hundredGate slowVenue none).served
          cancelledThrice) ∧
        ((Floor.new EngineRun.hundredGate slowVenue none).served
            cancelledThrice).countP
            (isCancelOf EngineRun.twoUnits.orderId) =
          3 ∧
        ((Floor.new EngineRun.hundredGate slowVenue none).play
            cancelledThrice).reports.countP
            (isRefusalOf EngineRun.twoUnits.orderId) =
          1 := by
  have hAccountable :
      (Floor.new EngineRun.hundredGate slowVenue
        none).AllAccountable cancelledThrice := by
    decide +kernel
  exact
    ⟨hAccountable,
      answersCancels_play EngineRun.hundredGate slowVenue none
        cancelledThrice hAccountable,
      by decide +kernel, by decide +kernel⟩

end Floor

end OrderDesk
