import OrderDesk.Engine.Basic
import OrderDesk.Proofs.Order.Replay

/-
  This file says once what a message can do to the engine.
  Everything else about the engine is derived from that and
  does not look into its handlers again.

  Key definitions include:
    * `Engine.Reaction`
    * `eventsAbout`
    * `submissionsOf`
    * `isCancelOf`
    * `Engine.OrderChange`

  Key theorems include:
    * `Engine.exists_reaction`
    * `Engine.Reaction.of_transitionRejected_mem`
    * `Engine.Reaction.orderChange`
-/

namespace OrderDesk

------------------------------------------------------------
-- Admission
------------------------------------------------------------

namespace Engine

/-
  A new order is refused for a reason, or both its shape and
  the gate speak for it.
-/
theorem admission_cases
    (engine : Engine)
    (command : SubmitOrder) :
    ((engine.admission command).1 = .submitted ∧
        command.validate = .ok () ∧
          engine.gate.check command = .ok ()) ∨
      ∃ reason,
        (engine.admission command).1 = .invalid reason ∨
          (engine.admission command).1 = .denied reason := by
  unfold admission
  cases hShape : command.validate with
  | error e => exact Or.inr ⟨e.message, Or.inl rfl⟩
  | ok =>
      cases hGate : engine.gate.check command with
      | error e => exact Or.inr ⟨e.message, Or.inr rfl⟩
      | ok => exact Or.inl ⟨rfl, rfl, rfl⟩

theorem admission_ne_submitted
    {engine : Engine}
    {command : SubmitOrder}
    {reason : String}
    (hRefused :
      (engine.admission command).1 = .invalid reason ∨
        (engine.admission command).1 = .denied reason) :
    (engine.admission command).1 ≠ .submitted := by
  intro hAdmitted
  rcases hRefused with hRefused | hRefused
  · cases hAdmitted.symm.trans hRefused
  · cases hAdmitted.symm.trans hRefused

theorem admission_fill?
    (engine : Engine)
    (command : SubmitOrder) :
    (engine.admission command).1.fill? = none := by
  rcases engine.admission_cases command with
    ⟨hAdmitted, _⟩ | ⟨reason, hRefused | hRefused⟩
  · rw [hAdmitted]
    rfl
  · rw [hRefused]
    rfl
  · rw [hRefused]
    rfl

theorem next?_admission
    (engine : Engine)
    (command : SubmitOrder) :
    OrderState.initialized.next?
        (engine.admission command).1.kind =
      some (engine.admission command).1.kind.target := by
  rcases engine.admission_cases command with
    ⟨hAdmitted, _⟩ | ⟨reason, hRefused | hRefused⟩
  · rw [hAdmitted]
    rfl
  · rw [hRefused]
    rfl
  · rw [hRefused]
    rfl

/- The order that a submission leads to. -/
def opened
    (engine : Engine)
    (command : SubmitOrder) : Order :=
  (Order.new command).advance
    ⟨command.orderId, (engine.admission command).1⟩
    (engine.admission command).1.kind.target
    (0, none)

/- The first event of a new order is always applied. -/
theorem apply_admission
    (engine : Engine)
    (command : SubmitOrder) :
    (Order.new command).apply
        ⟨command.orderId, (engine.admission command).1⟩ =
      .ok (engine.opened command) :=
  Order.apply_of_fill?_eq_none
    (engine.next?_admission command)
    (engine.admission_fill? command)

------------------------------------------------------------
-- Reactions
------------------------------------------------------------

/-
  What a message can do: one case for each way through the
  handlers, with all that holds on that way.
-/
inductive Reaction
    (stamp : Stamp)
    (engine : Engine)
    (envelope : Envelope TradingMessage) :
    EngineStep → Prop where
  | duplicate
      (command : SubmitOrder)
      (order : Order)
      (hPayload : envelope.payload = .submitOrder command)
      (hKnown :
        engine.blotter.find? command.orderId = some order) :
      Reaction stamp engine envelope
        { engine
          notices := [.duplicateOrder command.orderId] }
  | opened
      (command : SubmitOrder)
      (hPayload : envelope.payload = .submitOrder command)
      (hNew : engine.blotter.find? command.orderId = none) :
      Reaction stamp engine envelope
        { engine :=
            engine.withOrder command.orderId
              (engine.opened command)
          events :=
            [publication stamp
              ⟨command.orderId, (engine.admission command).1⟩]
          commands :=
            if (engine.admission command).1 = .submitted then
              [⟨envelope.header, .submitOrder command⟩]
            else
              []
          notices := (engine.admission command).2 }
  | cancelRefused
      (cancel : CancelOrder)
      (refusal : CancelRejected)
      (hPayload : envelope.payload = .cancelOrder cancel)
      (hRefusal :
        engine.cancelRefusal? cancel.orderId = some refusal) :
      Reaction stamp engine envelope
        { engine
          events := [Envelope.event stamp (.cancelRejected refusal)]
          notices :=
            [.cancelRejected cancel.orderId refusal.reason] }
  | cancelForwarded
      (cancel : CancelOrder)
      (hPayload : envelope.payload = .cancelOrder cancel)
      (hRefusal : engine.cancelRefusal? cancel.orderId = none) :
      Reaction stamp engine envelope
        { engine
          commands := [⟨envelope.header, .cancelOrder cancel⟩] }
  | reportUnknown
      (event : OrderEvent)
      (hPayload : envelope.payload = .orderEvent event)
      (hUnknown : engine.blotter.find? event.orderId = none) :
      Reaction stamp engine envelope
        { engine
          notices := [.unknownOrder event.orderId event.kind] }
  | reportApplied
      (event : OrderEvent)
      (order next : Order)
      (hPayload : envelope.payload = .orderEvent event)
      (hOrder : engine.blotter.find? event.orderId = some order)
      (hApply : order.apply event = .ok next) :
      Reaction stamp engine envelope
        { engine := engine.withOrder event.orderId next
          events := [publication stamp event] }
  | reportRefused
      (event : OrderEvent)
      (order : Order)
      (e : OrderError)
      (hPayload : envelope.payload = .orderEvent event)
      (hOrder : engine.blotter.find? event.orderId = some order)
      (hApply : order.apply event = .error e) :
      Reaction stamp engine envelope
        { engine
          events :=
            [Envelope.event stamp
              (.transitionRejected (reportRefusal order event e))]
          notices := [.reportRejected event.orderId e.message] }
  | cancelRejectionPassed
      (rejection : CancelRejected)
      (hPayload : envelope.payload = .cancelRejected rejection) :
      Reaction stamp engine envelope
        { engine, events := [envelope] }
  | transitionRejectionPassed
      (rejection : TransitionRejected)
      (hPayload :
        envelope.payload = .transitionRejected rejection) :
      Reaction stamp engine envelope
        { engine, events := [envelope] }

/-
  The engine takes every message, and what comes of it is
  one of the reactions.
-/
theorem exists_reaction
    (stamp : Stamp)
    (engine : Engine)
    (envelope : Envelope TradingMessage) :
    ∃ step,
      engine.handle stamp envelope = .ok step ∧
        Reaction stamp engine envelope step := by
  unfold handle
  cases hPayload : envelope.payload with
  | submitOrder command =>
      cases hFound : engine.blotter.find? command.orderId with
      | some order =>
          exact
            ⟨_, by simp [onSubmit, hFound],
              .duplicate command order hPayload hFound⟩
      | none =>
          exact
            ⟨_, by
              simp [onSubmit, hFound, engine.apply_admission,
                Except.map],
              .opened command hPayload hFound⟩
  | cancelOrder cancel =>
      cases hRefusal : engine.cancelRefusal? cancel.orderId with
      | some refusal =>
          exact
            ⟨_, by simp only [onCancel, hRefusal],
              .cancelRefused cancel refusal hPayload hRefusal⟩
      | none =>
          exact
            ⟨_, by simp only [onCancel, hRefusal],
              .cancelForwarded cancel hPayload hRefusal⟩
  | orderEvent event =>
      cases hFound : engine.blotter.find? event.orderId with
      | none =>
          exact
            ⟨_, by simp only [onReport, hFound],
              .reportUnknown event hPayload hFound⟩
      | some order =>
          cases hApply : order.apply event with
          | ok next =>
              exact
                ⟨_, by simp only [onReport, hFound, hApply],
                  .reportApplied event order next hPayload
                    hFound hApply⟩
          | error e =>
              exact
                ⟨_, by simp only [onReport, hFound, hApply],
                  .reportRefused event order e hPayload
                    hFound hApply⟩
  | cancelRejected rejection =>
      exact ⟨_, rfl, .cancelRejectionPassed rejection hPayload⟩
  | transitionRejected rejection =>
      exact
        ⟨_, rfl, .transitionRejectionPassed rejection hPayload⟩

/- Each reaction is what comes of the message. -/
theorem Reaction.handle_eq
    {stamp : Stamp}
    {engine : Engine}
    {envelope : Envelope TradingMessage}
    {step : EngineStep}
    (hReaction : Reaction stamp engine envelope step) :
    engine.handle stamp envelope = .ok step := by
  unfold handle
  cases hReaction with
  | duplicate command order hPayload hKnown =>
      simp [hPayload, onSubmit, hKnown]
  | opened command hPayload hNew =>
      simp [hPayload, onSubmit, hNew, engine.apply_admission,
        Except.map]
  | cancelRefused cancel refusal hPayload hRefusal =>
      simp only [hPayload, onCancel, hRefusal]
  | cancelForwarded cancel hPayload hRefusal =>
      simp only [hPayload, onCancel, hRefusal]
  | reportUnknown event hPayload hUnknown =>
      simp only [hPayload, onReport, hUnknown]
  | reportApplied event order next hPayload hOrder hApply =>
      simp only [hPayload, onReport, hOrder, hApply]
  | reportRefused event order e hPayload hOrder hApply =>
      simp only [hPayload, onReport, hOrder, hApply]
  | cancelRejectionPassed rejection hPayload =>
      simp only [hPayload]
  | transitionRejectionPassed rejection hPayload =>
      simp only [hPayload]

/- A message has one reaction only. -/
theorem Reaction.unique
    {stamp : Stamp}
    {engine : Engine}
    {envelope : Envelope TradingMessage}
    {step step' : EngineStep}
    (hReaction : Reaction stamp engine envelope step)
    (hReaction' : Reaction stamp engine envelope step') :
    step = step' :=
  Except.ok.inj (hReaction.handle_eq.symm.trans hReaction'.handle_eq)

/- A refusal names the order that was to be cancelled. -/
theorem orderId_of_cancelRefusal?
    {engine : Engine}
    {id : OrderId}
    {refusal : CancelRejected}
    (hRefusal : engine.cancelRefusal? id = some refusal) :
    refusal.orderId = id := by
  unfold cancelRefusal? at hRefusal
  split at hRefusal
  · cases hRefusal
    rfl
  · split at hRefusal
    · cases hRefusal
    · cases hRefusal
      rfl

/- No message opens the gate, shuts it or moves its limits. -/
theorem Reaction.gate
    {stamp : Stamp}
    {engine : Engine}
    {envelope : Envelope TradingMessage}
    {step : EngineStep}
    (hReaction : Reaction stamp engine envelope step) :
    step.engine.gate = engine.gate := by
  cases hReaction <;> rfl

/-
  A submission that is sent was taken, makes sense on its
  own and has passed the gate.
-/
theorem Reaction.check_of_sent
    {stamp : Stamp}
    {engine : Engine}
    {envelope sent : Envelope TradingMessage}
    {step : EngineStep}
    {command : SubmitOrder}
    (hReaction : Reaction stamp engine envelope step)
    (hSent : sent ∈ step.commands)
    (hPayload : sent.payload = .submitOrder command) :
    envelope.payload = .submitOrder command ∧
      command.validate = .ok () ∧
        engine.gate.check command = .ok () := by
  cases hReaction with
  | opened other hOther =>
      dsimp only at hSent
      split at hSent
      · rename_i hAdmitted
        cases List.mem_singleton.mp hSent
        cases hPayload
        refine ⟨hOther, ?_⟩
        rcases engine.admission_cases command with
          ⟨_, hAdmission⟩ | ⟨reason, hRefused⟩
        · exact hAdmission
        · exact absurd hAdmitted (admission_ne_submitted hRefused)
      · cases hSent
  | cancelForwarded cancel =>
      cases List.mem_singleton.mp hSent
      cases hPayload
  | _ => cases hSent

/-
  The engine says that an event did not fit its order only
  when an event did not, or when it hands on what it was
  told.
-/
theorem Reaction.of_transitionRejected_mem
    {stamp : Stamp}
    {engine : Engine}
    {envelope sent : Envelope TradingMessage}
    {step : EngineStep}
    {rejection : TransitionRejected}
    (hReaction : Reaction stamp engine envelope step)
    (hSent : sent ∈ step.events)
    (hPayload : sent.payload = .transitionRejected rejection) :
    envelope.payload = .transitionRejected rejection ∨
      ∃ event order e,
        envelope.payload = .orderEvent event ∧
          engine.blotter.find? event.orderId = some order ∧
            order.apply event = .error e := by
  cases hReaction with
  | duplicate => cases hSent
  | cancelForwarded => cases hSent
  | reportUnknown => cases hSent
  | opened command =>
      cases List.mem_singleton.mp hSent
      cases hPayload
  | cancelRefused cancel refusal =>
      cases List.mem_singleton.mp hSent
      cases hPayload
  | reportApplied event order next =>
      cases List.mem_singleton.mp hSent
      cases hPayload
  | reportRefused event order e hEvent hOrder hApply =>
      exact Or.inr ⟨event, order, e, hEvent, hOrder, hApply⟩
  | cancelRejectionPassed other hOther =>
      cases List.mem_singleton.mp hSent
      cases hOther.symm.trans hPayload
  | transitionRejectionPassed other hOther =>
      cases List.mem_singleton.mp hSent
      exact Or.inl hPayload

end Engine

------------------------------------------------------------
-- Messages About One Order
------------------------------------------------------------

/- The order event in a message, if there is one. -/
def orderEvent?
    (envelope : Envelope TradingMessage) : Option OrderEvent :=
  match envelope.payload with
  | .orderEvent event => some event
  | _ => none

theorem payload_of_mem_orderEvent?
    {envelope : Envelope TradingMessage}
    {event : OrderEvent}
    (hEvent : event ∈ orderEvent? envelope) :
    envelope.payload = .orderEvent event := by
  unfold orderEvent? at hEvent
  split at hEvent
  · rename_i other hPayload
    cases hEvent
    exact hPayload
  · cases hEvent

/- The order event in a message, if it is about the given order. -/
def eventAbout?
    (id : OrderId)
    (envelope : Envelope TradingMessage) : Option OrderEvent :=
  match envelope.payload with
  | .orderEvent event =>
      if event.orderId = id then some event else none
  | _ => none

/- The order events about the given order among messages. -/
def eventsAbout
    (id : OrderId)
    (envelopes : List (Envelope TradingMessage)) :
    List OrderEvent :=
  envelopes.filterMap (eventAbout? id)

/- The submission in a message, if it asks for the given order. -/
def submissionOf?
    (id : OrderId)
    (envelope : Envelope TradingMessage) : Option SubmitOrder :=
  match envelope.payload with
  | .submitOrder command =>
      if command.orderId = id then some command else none
  | _ => none

theorem payload_of_submissionOf?
    {id : OrderId}
    {envelope : Envelope TradingMessage}
    {command : SubmitOrder}
    (hCommand : submissionOf? id envelope = some command) :
    envelope.payload = .submitOrder command ∧
      command.orderId = id := by
  unfold submissionOf? at hCommand
  split at hCommand
  · rename_i other hPayload
    split at hCommand
    · rename_i hId
      cases hCommand
      exact ⟨hPayload, hId⟩
    · cases hCommand
  · cases hCommand

/- A message asks to cancel the given order. -/
def isCancelOf
    (id : OrderId)
    (envelope : Envelope TradingMessage) : Bool :=
  match envelope.payload with
  | .cancelOrder cancel => cancel.orderId = id
  | _ => false

/- The submissions of the given order among messages. -/
def submissionsOf
    (id : OrderId)
    (envelopes : List (Envelope TradingMessage)) :
    List SubmitOrder :=
  envelopes.filterMap (submissionOf? id)

section

variable (id : OrderId)

@[simp] theorem eventsAbout_nil :
    eventsAbout id [] = [] :=
  rfl

@[simp] theorem eventsAbout_append
    (first second : List (Envelope TradingMessage)) :
    eventsAbout id (first ++ second) =
      eventsAbout id first ++ eventsAbout id second :=
  List.filterMap_append

theorem eventsAbout_cons
    (envelope : Envelope TradingMessage)
    (rest : List (Envelope TradingMessage)) :
    eventsAbout id (envelope :: rest) =
      (eventAbout? id envelope).toList ++ eventsAbout id rest := by
  unfold eventsAbout
  cases hEvent : eventAbout? id envelope <;> simp [hEvent]

/- An order event is about the order that it names only. -/
theorem eventAbout?_orderEvent
    {envelope : Envelope TradingMessage}
    {event : OrderEvent}
    (hPayload : envelope.payload = .orderEvent event) :
    eventAbout? id envelope =
      if event.orderId = id then some event else none := by
  simp only [eventAbout?, hPayload]

theorem orderEvent?_of_eventAbout?
    {envelope : Envelope TradingMessage}
    {event : OrderEvent}
    (hEvent : eventAbout? id envelope = some event) :
    orderEvent? envelope = some event ∧ event.orderId = id := by
  unfold eventAbout? at hEvent
  unfold orderEvent?
  cases hPayload : envelope.payload with
  | orderEvent other =>
      rw [hPayload] at hEvent
      dsimp only at hEvent
      split at hEvent
      · rename_i hId
        cases hEvent
        exact ⟨rfl, hId⟩
      · cases hEvent
  | _ =>
      rw [hPayload] at hEvent
      cases hEvent

theorem eventAbout?_eq_none
    {envelope : Envelope TradingMessage}
    (hPayload : ∀ event, envelope.payload ≠ .orderEvent event) :
    eventAbout? id envelope = none := by
  unfold eventAbout?
  cases hKind : envelope.payload <;> simp_all

@[simp] theorem submissionsOf_nil :
    submissionsOf id [] = [] :=
  rfl

@[simp] theorem submissionsOf_append
    (first second : List (Envelope TradingMessage)) :
    submissionsOf id (first ++ second) =
      submissionsOf id first ++ submissionsOf id second :=
  List.filterMap_append

theorem submissionsOf_cons
    (envelope : Envelope TradingMessage)
    (rest : List (Envelope TradingMessage)) :
    submissionsOf id (envelope :: rest) =
      (submissionOf? id envelope).toList ++
        submissionsOf id rest := by
  unfold submissionsOf
  cases hCommand : submissionOf? id envelope <;> simp [hCommand]

end

------------------------------------------------------------
-- What Happens To One Order
------------------------------------------------------------

namespace Engine

/-
  What a message does to the order under `id`: nothing, and
  an event about the order is refused then; or it opens the
  order, and passes the submission on if nothing speaks
  against it; or it reports an event that is applied to the
  order. What is published about the order goes along.
-/
inductive OrderChange
    (engine : Engine)
    (envelope : Envelope TradingMessage)
    (id : OrderId)
    (step : EngineStep) : Prop where
  | kept
      (hFound :
        step.engine.blotter.find? id = engine.blotter.find? id)
      (hEvents : eventsAbout id step.events = [])
      (hCommands : submissionsOf id step.commands = [])
      (hKnown :
        submissionOf? id envelope ≠ none →
          engine.blotter.find? id ≠ none)
      (hRefused :
        ∀ event order,
          eventAbout? id envelope = some event →
            engine.blotter.find? id = some order →
              ∃ e, order.apply event = .error e)
  | opened
      (command : SubmitOrder)
      (occurrence : Occurrence)
      (order : Order)
      (hCommand : submissionOf? id envelope = some command)
      (hId : command.orderId = id)
      (hNew : engine.blotter.find? id = none)
      (hApply :
        (Order.new command).apply ⟨id, occurrence⟩ = .ok order)
      (hFound : step.engine.blotter.find? id = some order)
      (hEvents : eventsAbout id step.events = [⟨id, occurrence⟩])
      (hAdmission :
        (occurrence = .submitted ∧
            engine.gate.check command = .ok () ∧
              submissionsOf id step.commands = [command]) ∨
          ∃ reason,
            (occurrence = .invalid reason ∨
                occurrence = .denied reason) ∧
              submissionsOf id step.commands = [])
  | advanced
      (event : OrderEvent)
      (order next : Order)
      (hEvent : eventAbout? id envelope = some event)
      (hOrder : engine.blotter.find? id = some order)
      (hApply : order.apply event = .ok next)
      (hFound : step.engine.blotter.find? id = some next)
      (hEvents : eventsAbout id step.events = [event])
      (hCommands : submissionsOf id step.commands = [])

theorem orderChange_opened_of_ne
    {stamp : Stamp}
    {engine : Engine}
    {envelope : Envelope TradingMessage}
    {command : SubmitOrder}
    {id : OrderId}
    (hPayload : envelope.payload = .submitOrder command)
    (hId : command.orderId ≠ id) :
    OrderChange engine envelope id
      { engine :=
          engine.withOrder command.orderId (engine.opened command)
        events :=
          [publication stamp
            ⟨command.orderId, (engine.admission command).1⟩]
        commands :=
          if (engine.admission command).1 = .submitted then
            [⟨envelope.header, .submitOrder command⟩]
          else
            []
        notices := (engine.admission command).2 } := by
  refine .kept ?_ ?_ ?_ ?_ ?_
  · exact Blotter.find?_put_of_ne _ _ (Ne.symm hId)
  · simp [eventsAbout, eventAbout?, publication,
      Envelope.event, Envelope.make, hId]
  · dsimp only
    split <;> simp [submissionsOf, submissionOf?, hId]
  · simp [submissionOf?, hPayload, hId]
  · simp [eventAbout?, hPayload]

theorem orderChange_opened_self
    {stamp : Stamp}
    {engine : Engine}
    {envelope : Envelope TradingMessage}
    {command : SubmitOrder}
    (hPayload : envelope.payload = .submitOrder command)
    (hNew : engine.blotter.find? command.orderId = none) :
    OrderChange engine envelope command.orderId
      { engine :=
          engine.withOrder command.orderId (engine.opened command)
        events :=
          [publication stamp
            ⟨command.orderId, (engine.admission command).1⟩]
        commands :=
          if (engine.admission command).1 = .submitted then
            [⟨envelope.header, .submitOrder command⟩]
          else
            []
        notices := (engine.admission command).2 } := by
  refine
    .opened command (engine.admission command).1
      (engine.opened command) ?_ rfl hNew
      (engine.apply_admission command)
      (Blotter.find?_put_self _ _ _) ?_ ?_
  · simp [submissionOf?, hPayload]
  · simp [eventsAbout, eventAbout?, publication,
      Envelope.event, Envelope.make]
  · dsimp only
    rcases engine.admission_cases command with
      ⟨hAdmitted, _, hCheck⟩ | ⟨reason, hRefused⟩
    · rw [if_pos hAdmitted]
      exact
        Or.inl
          ⟨hAdmitted, hCheck, by
            simp [submissionsOf, submissionOf?]⟩
    · refine Or.inr ⟨reason, hRefused, ?_⟩
      rw [if_neg (admission_ne_submitted hRefused)]
      rfl

/-
  A message without an order event that asks for nothing new
  and makes the engine neither change an order nor say
  anything about one keeps every order.
-/
theorem orderChange_of_idle
    {engine : Engine}
    {envelope : Envelope TradingMessage}
    {id : OrderId}
    {step : EngineStep}
    (hEngine : step.engine = engine)
    (hEvents : eventsAbout id step.events = [])
    (hCommands : submissionsOf id step.commands = [])
    (hNoSubmission : submissionOf? id envelope = none)
    (hNoEvent : eventAbout? id envelope = none) :
    OrderChange engine envelope id step := by
  refine .kept (by rw [hEngine]) hEvents hCommands ?_ ?_
  · intro hAsked
    exact absurd hNoSubmission hAsked
  · intro event order hEvent
    cases hNoEvent.symm.trans hEvent

/- A reaction changes an order in one of three ways. -/
theorem Reaction.orderChange
    {stamp : Stamp}
    {engine : Engine}
    {envelope : Envelope TradingMessage}
    {step : EngineStep}
    (hReaction : Reaction stamp engine envelope step)
    (id : OrderId) :
    OrderChange engine envelope id step := by
  cases hReaction with
  | duplicate command order hPayload hKnown =>
      refine .kept rfl rfl rfl ?_ ?_
      · intro hAsked
        by_cases hId : command.orderId = id
        · rw [← hId, hKnown]
          simp
        · simp [submissionOf?, hPayload, hId] at hAsked
      · intro event other hEvent
        simp [eventAbout?, hPayload] at hEvent
  | opened command hPayload hNew =>
      by_cases hId : command.orderId = id
      · subst hId
        exact orderChange_opened_self hPayload hNew
      · exact orderChange_opened_of_ne hPayload hId
  | cancelRefused cancel refusal hPayload hRefusal =>
      refine
        orderChange_of_idle (by rfl) (by rfl) (by rfl) ?_ ?_
      · simp [submissionOf?, hPayload]
      · simp [eventAbout?, hPayload]
  | cancelForwarded cancel hPayload hRefusal =>
      refine
        orderChange_of_idle (by rfl) (by rfl) (by rfl) ?_ ?_
      · simp [submissionOf?, hPayload]
      · simp [eventAbout?, hPayload]
  | reportUnknown event hPayload hUnknown =>
      refine .kept rfl rfl rfl ?_ ?_
      · simp [submissionOf?, hPayload]
      · intro other order hEvent hOrder
        by_cases hId : event.orderId = id
        · subst hId
          cases hUnknown.symm.trans hOrder
        · simp [eventAbout?, hPayload, hId] at hEvent
  | reportApplied event order next hPayload hOrder hApply =>
      by_cases hId : event.orderId = id
      · subst hId
        exact
          .advanced event order next
            (by simp [eventAbout?, hPayload]) hOrder hApply
            (Blotter.find?_put_self _ _ _)
            (by simp [eventsAbout, eventAbout?, publication,
              Envelope.event, Envelope.make])
            rfl
      · refine .kept ?_ ?_ rfl ?_ ?_
        · exact Blotter.find?_put_of_ne _ _ (Ne.symm hId)
        · simp [eventsAbout, eventAbout?, publication,
            Envelope.event, Envelope.make, hId]
        · simp [submissionOf?, hPayload]
        · simp [eventAbout?, hPayload, hId]
  | reportRefused event order e hPayload hOrder hApply =>
      refine .kept rfl rfl rfl ?_ ?_
      · simp [submissionOf?, hPayload]
      · intro other stored hEvent hStored
        by_cases hId : event.orderId = id
        · subst hId
          simp only [eventAbout?, hPayload, if_pos,
            Option.some.injEq] at hEvent
          subst hEvent
          cases hOrder.symm.trans hStored
          exact ⟨e, hApply⟩
        · simp [eventAbout?, hPayload, hId] at hEvent
  | cancelRejectionPassed rejection hPayload =>
      refine
        orderChange_of_idle (by rfl) ?_ (by rfl) ?_ ?_
      · simp [eventsAbout, eventAbout?, hPayload]
      · simp [submissionOf?, hPayload]
      · simp [eventAbout?, hPayload]
  | transitionRejectionPassed rejection hPayload =>
      refine
        orderChange_of_idle (by rfl) ?_ (by rfl) ?_ ?_
      · simp [eventsAbout, eventAbout?, hPayload]
      · simp [submissionOf?, hPayload]
      · simp [eventAbout?, hPayload]

end Engine

end OrderDesk
