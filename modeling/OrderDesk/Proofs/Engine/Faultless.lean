import OrderDesk.Proofs.Engine.Census
import OrderDesk.Proofs.Engine.Run
import OrderDesk.Proofs.Order.Atomicity
import OrderDesk.Proofs.RiskGate.Notional

/-
  This file proves that no message can stop the engine in the
  middle of its work.

  The handlers are written down step by step. A handler may
  stop where an order cannot be made, where the first event
  of an order is refused, or where an event is offered to an
  order that it is not about; what it did before stays done.
  In all states that messages can lead to it does none of
  these, so that what it does step by step is what comes of
  the message as a whole.

  Key definitions include:
    * `Fault`
    * `Handling`
    * `Handling.handle`
    * `Handling.takeAll`
    * `Engine.FilesByOwnId`
    * `Engine.IsFaultless`

  Key theorems include:
    * `Handling.runOn_handle`
    * `Handling.runOn_takeAll`
    * `Engine.FilesByOwnId.isFaultless`
    * `EngineRun.isFaultless_process`
-/

namespace OrderDesk

------------------------------------------------------------
-- Orders Under Their Own Identifiers
------------------------------------------------------------

namespace Engine

variable {stamp : Stamp} {engine : Engine}
variable {envelope : Envelope TradingMessage}
variable {step : EngineStep}

/- Every order is filed under its own identifier. -/
def FilesByOwnId
    (engine : Engine) : Prop :=
  ∀ id order,
    engine.blotter.find? id = some order → order.id = id

/- An order that has the identifier that it is filed under may join. -/
theorem FilesByOwnId.withOrder
    {id : OrderId}
    {order : Order}
    (hOwn : engine.FilesByOwnId)
    (hId : order.id = id) :
    (engine.withOrder id order).FilesByOwnId := by
  intro other found hFound
  by_cases hOther : other = id
  · subst hOther
    cases (Blotter.find?_put_self _ _ _).symm.trans hFound
    exact hId
  · exact
      hOwn other found
        ((Blotter.find?_put_of_ne order _ hOther).symm.trans hFound)

/- No message brings an order under the identifier of another. -/
theorem Reaction.filesByOwnId
    (hReaction : Reaction stamp engine envelope step)
    (hOwn : engine.FilesByOwnId) :
    step.engine.FilesByOwnId := by
  cases hReaction with
  | opened command => exact hOwn.withOrder rfl
  | reportApplied event order next hPayload hOrder hApply =>
      have hSame := (Order.terms_of_apply hApply).1
      exact hOwn.withOrder (hSame.trans (hOwn _ _ hOrder))
  | _ => exact hOwn

/- An order that is filed again as it is leaves the engine as it was. -/
theorem withOrder_of_find?_eq_some
    {id : OrderId}
    {order : Order}
    (hFound : engine.blotter.find? id = some order) :
    engine.withOrder id order = engine := by
  rcases engine with ⟨⟨entries⟩, gate⟩
  have hSplit :
      ∃ earlier later,
        entries = earlier ++ (id, order) :: later ∧
          Blotter.putInto id order entries =
            earlier ++ (id, order) :: later :=
    Blotter.exists_putInto_of_lookup_eq_some hFound
  rcases hSplit with ⟨earlier, later, hEntries, hPut⟩
  unfold Engine.withOrder Blotter.put
  rw [hPut, ← hEntries]

end Engine

------------------------------------------------------------
-- Faults
------------------------------------------------------------

/-
  Why a handler stops: there is no machine for an order, the
  first event of an order is refused, or an event is offered
  to an order that it is not about.
-/
inductive Fault where
  | machine (e : ValidationError)
  | opening (e : OrderError)
  | misdirected (order : Order) (event : OrderEvent)

/- Add what comes of a further message to what came so far. -/
def EngineStep.goOn
    (before step : EngineStep) : EngineStep where
  engine := step.engine
  events := before.events ++ step.events
  commands := before.commands ++ step.commands
  notices := before.notices ++ step.notices

/- What was done so far, as a run of the engine. -/
def EngineStep.asRun
    (step : EngineStep) : EngineRun :=
  ⟨step.engine, step.events, step.commands⟩

/-
  The work of a handler, which goes on with what was done so
  far and may stop. What was done before it stops stays done.
-/
abbrev Handling :=
  InPlace Fault EngineStep

namespace Handling

open InPlace

------------------------------------------------------------
-- Steps Of Handlers
------------------------------------------------------------

/- Tell the log. -/
def tell
    (notice : Notice) : Handling Unit :=
  modify fun step => { step with notices := step.notices ++ [notice] }

/- Tell those who observe orders. -/
def publish
    (envelope : Envelope TradingMessage) : Handling Unit :=
  modify fun step => { step with events := step.events ++ [envelope] }

/- Hand a message on to the venue. -/
def forward
    (envelope : Envelope TradingMessage) : Handling Unit :=
  modify fun step =>
    { step with commands := step.commands ++ [envelope] }

/- File an order. -/
def file
    (id : OrderId)
    (order : Order) : Handling Unit :=
  modify fun step =>
    { step with engine := step.engine.withOrder id order }

/- Make an order with the machine that is to drive it. -/
def make
    (command : SubmitOrder) : Handling Order :=
  match
    StateMachine.start OrderState.transitions .initialized
  with
  | .error e => throw (.machine e)
  | .ok machine =>
      return { Order.new command with state := machine.state }

/- Offer an event to an order, which it has to be about. -/
def offer
    (order : Order)
    (event : OrderEvent) :
    Handling (Except OrderError OrderState × Order) :=
  if event.orderId = order.id then
    return order.offer event
  else
    throw (.misdirected order event)

/- Find out what happens first to a new order. -/
def judge
    (command : SubmitOrder) : Handling Occurrence := do
  match command.validate with
  | .error e =>
      tell (.orderInvalid command.orderId e.message)
      return .invalid e.message
  | .ok () =>
      let step ← get
      match step.engine.gate.check command with
      | .error e =>
          tell (.orderDenied command.orderId e.message)
          return .denied e.message
      | .ok () => return .submitted

------------------------------------------------------------
-- Handlers
------------------------------------------------------------

/-
  Take a submission: make the order, judge it, let it take
  its first event, and file it. All the rest comes after it
  is filed.
-/
def onSubmit
    (stamp : Stamp)
    (header : Header)
    (command : SubmitOrder) : Handling Unit := do
  let step ← get
  if (step.engine.blotter.find? command.orderId).isSome then
    tell (.duplicateOrder command.orderId)
  else
    let order ← make command
    let occurrence ← judge command
    let event : OrderEvent := ⟨command.orderId, occurrence⟩
    let (answer, order) ← offer order event
    match answer with
    | .error e => throw (.opening e)
    | .ok _ =>
        file command.orderId order
        publish (Engine.publication stamp event)
        if occurrence = .submitted then
          forward ⟨header, .submitOrder command⟩

/- Take a cancel: refuse it or let the venue decide. -/
def onCancel
    (stamp : Stamp)
    (header : Header)
    (cancel : CancelOrder) : Handling Unit := do
  let step ← get
  match step.engine.cancelRefusal? cancel.orderId with
  | some refusal =>
      tell (.cancelRejected cancel.orderId refusal.reason)
      publish (Envelope.event stamp (.cancelRejected refusal))
  | none => forward ⟨header, .cancelOrder cancel⟩

/-
  Take a report. The order is revised where it is filed, so
  that it is left there as the offer leaves it, even if the
  answer is a refusal.
-/
def onReport
    (stamp : Stamp)
    (event : OrderEvent) : Handling Unit := do
  let step ← get
  match step.engine.blotter.find? event.orderId with
  | none => tell (.unknownOrder event.orderId event.kind)
  | some order =>
      let (answer, after) ← offer order event
      file event.orderId after
      match answer with
      | .ok _ => publish (Engine.publication stamp event)
      | .error e =>
          tell (.reportRejected event.orderId e.message)
          publish
            (Envelope.event stamp
              (.transitionRejected
                (Engine.reportRefusal order event e)))

/- Take a message. -/
def handle
    (stamp : Stamp)
    (envelope : Envelope TradingMessage) : Handling Unit :=
  match envelope.payload with
  | .submitOrder command => onSubmit stamp envelope.header command
  | .cancelOrder cancel => onCancel stamp envelope.header cancel
  | .orderEvent event => onReport stamp event
  | .cancelRejected _ => publish envelope
  | .transitionRejected _ => publish envelope

/- Take an input. -/
def take :
    EngineInput → Handling Unit
| .message stamp envelope => handle stamp envelope
| .pause reason =>
    modify fun step =>
      { step with engine := step.engine.pause reason }
| .resume =>
    modify fun step => { step with engine := step.engine.resume }

/- Take inputs one after the other, up to the first fault. -/
def takeAll :
    List EngineInput → Handling Unit
| [] => return
| input :: rest => do
    take input
    takeAll rest

------------------------------------------------------------
-- Running Handlers
------------------------------------------------------------

theorem runOn_make
    (command : SubmitOrder)
    (before : EngineStep) :
    (make command).runOn before =
      (.ok (Order.new command), before) := by
  have hRows : OrderState.transitions ≠ [] := by decide
  unfold make StateMachine.start
  rw [dif_neg hRows]
  rfl

/- What is offered to the order that it is about is answered. -/
theorem runOn_offer
    {order : Order}
    {event : OrderEvent}
    (hOwn : event.orderId = order.id)
    (before : EngineStep) :
    (offer order event).runOn before =
      (.ok (order.offer event), before) := by
  unfold offer
  rw [if_pos hOwn]
  rfl

/- What happens first to a new order is about it, and it takes it. -/
theorem runOn_offer_new
    (engine : Engine)
    (command : SubmitOrder)
    (before : EngineStep) :
    (offer (Order.new command)
        ⟨command.orderId, (engine.admission command).1⟩).runOn
          before =
      (.ok (.ok (engine.opened command).state, engine.opened command),
        before) := by
  rw [runOn_offer rfl,
    Order.offer_of_apply (engine.apply_admission command)]

theorem runOn_judge
    (command : SubmitOrder)
    (before : EngineStep) :
    (judge command).runOn before =
      (.ok (before.engine.admission command).1,
        { before with
          notices :=
            before.notices ++
              (before.engine.admission command).2 }) := by
  unfold judge Engine.admission
  cases command.validate with
  | error e => rfl
  | ok =>
      simp only [runOn_bind, runOn_get]
      cases before.engine.gate.check command with
      | error e => rfl
      | ok => simp

variable {stamp : Stamp} {before step : EngineStep}

theorem runOn_onSubmit
    {header : Header}
    {command : SubmitOrder}
    (hStep :
      before.engine.onSubmit stamp header command = .ok step) :
    (onSubmit stamp header command).runOn before =
      (.ok (), before.goOn step) := by
  unfold Engine.onSubmit at hStep
  unfold onSubmit
  simp only [runOn_bind, runOn_get]
  cases hFound : before.engine.blotter.find? command.orderId with
  | some order =>
      rw [hFound] at hStep
      cases hStep
      simp [tell, EngineStep.goOn]
  | none =>
      have hApply := before.engine.apply_admission command
      rw [hFound] at hStep
      simp only [Option.isSome_none, Bool.false_eq_true, if_false,
        hApply, Except.map, Except.ok.injEq] at hStep
      subst hStep
      simp only [Option.isSome_none, Bool.false_eq_true, if_false,
        runOn_bind, runOn_make, runOn_judge, runOn_offer_new, file,
        publish, runOn_modify]
      by_cases hPassed :
          (before.engine.admission command).1 = .submitted
      · simp [hPassed, forward, EngineStep.goOn]
      · simp [hPassed, EngineStep.goOn]

theorem runOn_onCancel
    (header : Header)
    (cancel : CancelOrder) :
    (onCancel stamp header cancel).runOn before =
      (.ok (),
        before.goOn (before.engine.onCancel stamp header cancel)) := by
  unfold onCancel Engine.onCancel
  simp only [runOn_bind, runOn_get]
  cases before.engine.cancelRefusal? cancel.orderId with
  | some refusal =>
      simp [tell, publish, EngineStep.goOn]
  | none =>
      simp [forward, EngineStep.goOn]

/- A report is taken as a whole if it finds the order it is about. -/
theorem runOn_onReport
    {event : OrderEvent}
    (hOwn : before.engine.FilesByOwnId) :
    (onReport stamp event).runOn before =
      (.ok (),
        before.goOn (before.engine.onReport stamp event)) := by
  unfold onReport Engine.onReport
  simp only [runOn_bind, runOn_get]
  cases hFound : before.engine.blotter.find? event.orderId with
  | none => simp [tell, EngineStep.goOn]
  | some order =>
      have hAbout := (hOwn event.orderId order hFound).symm
      simp only [runOn_bind, runOn_offer hAbout]
      cases hApply : order.apply event with
      | ok next =>
          rw [Order.offer_of_apply hApply]
          simp [file, publish, EngineStep.goOn]
      | error e =>
          rw [Order.offer_of_apply_error hApply]
          simp [file, tell, publish, EngineStep.goOn,
            Engine.withOrder_of_find?_eq_some hFound]

/- A report that finds another order than its own is a fault. -/
theorem runOn_onReport_of_ne
    {event : OrderEvent}
    {order : Order}
    (hFound : before.engine.blotter.find? event.orderId = some order)
    (hOther : event.orderId ≠ order.id) :
    (onReport stamp event).runOn before =
      (.error (.misdirected order event), before) := by
  unfold onReport offer
  simp only [runOn_bind, runOn_get, hFound, if_neg hOther]
  rfl

/- Every message is taken as a whole. -/
theorem runOn_handle
    (hOwn : before.engine.FilesByOwnId)
    (stamp : Stamp)
    (envelope : Envelope TradingMessage) :
    ∃ step,
      before.engine.handle stamp envelope = .ok step ∧
        (handle stamp envelope).runOn before =
          (.ok (), before.goOn step) := by
  rcases Engine.exists_reaction stamp before.engine envelope with
    ⟨step, hStep, _⟩
  refine ⟨step, hStep, ?_⟩
  unfold Engine.handle at hStep
  unfold handle
  cases hPayload : envelope.payload with
  | submitOrder command =>
      rw [hPayload] at hStep
      exact runOn_onSubmit hStep
  | cancelOrder cancel =>
      rw [hPayload] at hStep
      cases hStep
      exact runOn_onCancel envelope.header cancel
  | orderEvent event =>
      rw [hPayload] at hStep
      cases hStep
      exact runOn_onReport hOwn
  | cancelRejected rejection =>
      rw [hPayload] at hStep
      cases hStep
      simp [publish, EngineStep.goOn]
  | transitionRejected rejection =>
      rw [hPayload] at hStep
      cases hStep
      simp [publish, EngineStep.goOn]

theorem runOn_take
    (hOwn : before.engine.FilesByOwnId)
    (input : EngineInput) :
    ∃ after,
      (take input).runOn before = (.ok (), after) ∧
        after.asRun = before.asRun.take input ∧
          after.engine.FilesByOwnId := by
  cases input with
  | message stamp envelope =>
      rcases runOn_handle hOwn stamp envelope with
        ⟨step, hStep, hRun⟩
      refine ⟨_, hRun, ?_, ?_⟩
      · simp only [EngineRun.take, EngineStep.asRun, hStep]
        rfl
      · rcases Engine.exists_reaction stamp before.engine envelope with
          ⟨other, hOther, hReaction⟩
        cases hStep.symm.trans hOther
        exact hReaction.filesByOwnId hOwn
  | pause reason => exact ⟨_, rfl, rfl, hOwn⟩
  | resume => exact ⟨_, rfl, rfl, hOwn⟩

/- Inputs are taken to the last one. -/
theorem runOn_takeAll
    (inputs : List EngineInput)
    (hOwn : before.engine.FilesByOwnId) :
    ∃ after,
      (takeAll inputs).runOn before = (.ok (), after) ∧
        after.asRun = before.asRun.process inputs ∧
          after.engine.FilesByOwnId := by
  induction inputs generalizing before with
  | nil => exact ⟨before, rfl, rfl, hOwn⟩
  | cons input rest ih =>
      rcases runOn_take hOwn input with
        ⟨middle, hTake, hMiddle, hMiddleOwn⟩
      rcases ih hMiddleOwn with ⟨after, hRest, hAfter, hAfterOwn⟩
      refine ⟨after, ?_, ?_, hAfterOwn⟩
      · simp only [takeAll, runOn_bind, hTake, hRest]
      · rw [hAfter, hMiddle]
        rfl

end Handling

------------------------------------------------------------
-- Engines Without Faults
------------------------------------------------------------

namespace Engine

/-
  What makes up an engine that no message can stop. Every
  message is taken to the end of its handler, with what comes
  of it as a whole; an order can be made for every submission
  and takes its first event; a report finds only the order
  that it is about; and a new submission ends up in the
  blotter, with its first event as its history, and is
  published.

  Numbers that are out of range are refusals and no faults: a
  fill that the accounts cannot keep leaves the engine as it
  was, and an order whose value is out of range is denied.
-/
structure IsFaultless
    (engine : Engine) : Prop where
  handled :
    ∀ stamp envelope,
      ∃ step,
        engine.handle stamp envelope = .ok step ∧
          (Handling.handle stamp envelope).runOn { engine } =
            (.ok (), step)
  opens :
    ∀ command,
      (Handling.make command).runOn { engine } =
          (.ok (Order.new command), { engine }) ∧
        (Order.new command).apply
            ⟨command.orderId, (engine.admission command).1⟩ =
          .ok (engine.opened command)
  own :
    ∀ (event : OrderEvent) order,
      engine.blotter.find? event.orderId = some order →
        event.orderId = order.id
  filed :
    ∀ stamp header (command : SubmitOrder) step,
      engine.blotter.find? command.orderId = none →
        engine.handle stamp ⟨header, .submitOrder command⟩ =
            .ok step →
          ∃ order,
            step.engine.blotter.find? command.orderId =
                some order ∧
              order.history =
                  [⟨command.orderId, (engine.admission command).1⟩] ∧
                step.events =
                  [publication stamp
                    ⟨command.orderId, (engine.admission command).1⟩]
  unaccountable :
    ∀ stamp header event order fill,
      engine.blotter.find? event.orderId = some order →
        order.canApply event.kind = true →
          event.occurrence.fill? = some fill →
            order.FillOverflows fill →
              engine.handle stamp ⟨header, .orderEvent event⟩ =
                .ok
                  { engine
                    events :=
                      [Envelope.event stamp
                        (.transitionRejected
                          ⟨event.orderId, order.state,
                            event.kind⟩)]
                    notices :=
                      [.reportRejected event.orderId
                        (OrderError.fillOverflow fill).message] }
  unvalued :
    ∀ (command : SubmitOrder) price,
      command.validate = .ok () →
        engine.gate.paused = none →
          0 < command.quantity →
            command.quantity ≤ engine.gate.limits.maxQuantity →
              engine.gate.valuation? command = some price →
                Decimal.IsOutOfRange
                    (command.quantity.value * price.value) →
                  (engine.admission command).1 =
                    .denied
                      (RiskError.notionalOverflow command.quantity
                        price).message

/- An engine that files orders by their own identifiers is faultless. -/
theorem FilesByOwnId.isFaultless
    {engine : Engine}
    (hOwn : engine.FilesByOwnId) :
    engine.IsFaultless where
  handled stamp envelope := by
    have hBefore :
        (⟨engine, [], [], []⟩ : EngineStep).engine.FilesByOwnId :=
      hOwn
    rcases Handling.runOn_handle hBefore stamp envelope with
      ⟨step, hStep, hRun⟩
    exact ⟨step, hStep, hRun⟩
  opens command :=
    ⟨Handling.runOn_make command _, engine.apply_admission command⟩
  own event order hFound := (hOwn event.orderId order hFound).symm
  filed stamp header command step hNew hStep := by
    have hReaction :
        Reaction stamp engine ⟨header, .submitOrder command⟩ _ :=
      .opened command rfl hNew
    cases hStep.symm.trans hReaction.handle_eq
    exact
      ⟨engine.opened command, Blotter.find?_put_self _ _ _, rfl, rfl⟩
  unaccountable stamp header event order fill hFound hCan hFill
      hOverflows := by
    have hNext :
        ∃ next,
          ⟨order.state, event.kind, next⟩ ∈
            OrderState.transitions := by
      rcases Option.isSome_iff_exists.mp hCan with ⟨next, hNext⟩
      exact ⟨next, OrderState.next?_eq_some_iff.mp hNext⟩
    have hApply :=
      (order.apply_eq_fillOverflow_iff event fill).mpr
        ⟨hNext, hFill, hOverflows⟩
    exact
      (Reaction.reportRefused event order _ rfl hFound
        hApply).handle_eq
  unvalued command price hShape hOpen hPositive hQuantity hPrice
      hRange := by
    unfold admission
    rw [hShape,
      RiskGate.check_of_isOutOfRange hOpen hPositive hQuantity hPrice
        hRange]

end Engine

/-
  No message can stop the engine: whatever an engine without
  orders is given, it takes all of it, step by step, and is
  then an engine that takes every further message.
-/
theorem EngineRun.isFaultless_process
    (gate : RiskGate)
    (inputs : List EngineInput) :
    (∃ after,
      (Handling.takeAll inputs).runOn { engine := Engine.new gate } =
          (.ok (), after) ∧
        after.asRun = (start gate).process inputs) ∧
      ((start gate).process inputs).engine.IsFaultless := by
  have hNew :
      (⟨Engine.new gate, [], [], []⟩ :
        EngineStep).engine.FilesByOwnId := by
    intro id order hFound
    cases hFound
  rcases Handling.runOn_takeAll inputs hNew with
    ⟨after, hRun, hAfter, hOwn⟩
  have hEngine :
      after.engine = ((start gate).process inputs).engine :=
    congrArg EngineRun.engine hAfter
  rw [hEngine] at hOwn
  exact ⟨⟨after, hRun, hAfter⟩, hOwn.isFaultless⟩

end OrderDesk
