import OrderDesk.Proofs.Engine.History

/-
  This file proves that nothing gets past the engine to the
  venue that should not. A submission goes on only if it is
  the first with its identifier and both its shape and the
  gate speak for it, and only once it was published as
  submitted. A cancel goes on only behind the submission of
  its order, and only while that order is open.

  All this is about the order in which an engine sends, so
  what goes to observers and what goes to the venue is put
  into one record.

  Key definitions include:
    * `EngineRun.record`
    * `Engine.Forwarding`
    * `EngineRun.Admits`
    * `EngineRun.GuardsVenue`

  Key theorems include:
    * `Engine.Reaction.forwarding`
    * `EngineRun.exists_forwarding`
    * `EngineRun.Admits.take`
    * `EngineRun.guards_venue`
-/

namespace OrderDesk

------------------------------------------------------------
-- What An Engine Sends
------------------------------------------------------------

/- The gate after an input. -/
def EngineInput.switch
    (gate : RiskGate) :
    EngineInput → RiskGate
| .message _ _ => gate
| .pause reason => gate.pause reason
| .resume => gate.resume

/- The gate after some inputs. -/
def gateAfter
    (gate : RiskGate)
    (inputs : List EngineInput) : RiskGate :=
  inputs.foldl EngineInput.switch gate

namespace EngineRun

/- What an engine sends on an input. -/
def answer
    (run : EngineRun) :
    EngineInput → List Outgoing
| .message stamp envelope =>
    match run.engine.handle stamp envelope with
    | .ok step => step.outgoing
    | .error _ => []
| .pause _ => []
| .resume => []

/- All that an engine sends, in the order of sending. -/
def record :
    EngineRun → List EngineInput → List Outgoing
| _, [] => []
| run, input :: rest =>
    run.answer input ++ (run.take input).record rest

/- What is sent on a message is what comes of a reaction to it. -/
theorem exists_step_of_answer_message
    (run : EngineRun)
    (stamp : Stamp)
    (envelope : Envelope TradingMessage) :
    ∃ step,
      run.answer (.message stamp envelope) = step.outgoing ∧
        run.take (.message stamp envelope) = run.follow step ∧
          Engine.Reaction stamp run.engine envelope step := by
  rcases Engine.exists_reaction stamp run.engine envelope with
    ⟨step, hHandle, hReaction⟩
  refine ⟨step, ?_, ?_, hReaction⟩
  · simp only [answer, hHandle]
  · simp only [take, hHandle]

theorem sent_take
    (run : EngineRun)
    (input : EngineInput) :
    (run.take input).events =
        run.events ++
          (run.answer input).filterMap Outgoing.published? ∧
      (run.take input).commands =
        run.commands ++
          (run.answer input).filterMap Outgoing.forwarded? := by
  cases input with
  | pause reason => simp [take, answer]
  | resume => simp [take, answer]
  | message stamp envelope =>
      rcases run.exists_step_of_answer_message stamp envelope with
        ⟨step, hAnswer, hTake, _⟩
      rw [hAnswer, hTake]
      rw [step.published_outgoing, step.forwarded_outgoing]
      exact ⟨rfl, rfl⟩

/- The record holds what was published and what was forwarded. -/
theorem sent_process
    (run : EngineRun)
    (inputs : List EngineInput) :
    (run.process inputs).events =
        run.events ++
          (run.record inputs).filterMap Outgoing.published? ∧
      (run.process inputs).commands =
        run.commands ++
          (run.record inputs).filterMap Outgoing.forwarded? := by
  induction inputs generalizing run with
  | nil => simp [process, record]
  | cons input rest ih =>
      have hTake := run.sent_take input
      have hRest := ih (run.take input)
      rw [hTake.1, hTake.2] at hRest
      simpa [process, record, List.filterMap_append] using hRest

/-
  What is sent is sent on some input, after all that was
  sent on the inputs before.
-/
theorem exists_answer_of_record
    {run : EngineRun}
    {inputs : List EngineInput}
    {sent later : List Outgoing}
    {out : Outgoing}
    (hRecord : run.record inputs = sent ++ out :: later) :
    ∃ before input after first rest,
      inputs = before ++ input :: after ∧
        (run.process before).answer input =
          first ++ out :: rest ∧
        sent = run.record before ++ first := by
  induction inputs generalizing run sent with
  | nil => simp [record] at hRecord
  | cons input rest ih =>
      have hSplit :
          (∃ more,
            sent = run.answer input ++ more ∧
              (run.take input).record rest =
                more ++ out :: later) ∨
            ∃ tail, run.answer input = sent ++ out :: tail := by
        rcases List.append_eq_append_iff.mp hRecord with
          ⟨more, hSent, hRest⟩ | ⟨more, hAnswer, hOut⟩
        · exact Or.inl ⟨more, hSent, hRest⟩
        · cases more with
          | nil => exact Or.inl ⟨[], by simp [hAnswer], hOut.symm⟩
          | cons first tail =>
              cases hOut
              exact Or.inr ⟨tail, hAnswer⟩
      rcases hSplit with ⟨more, rfl, hRest⟩ | ⟨tail, hAnswer⟩
      · rcases ih hRest with
          ⟨before, other, after, first, tail, rfl, hOther, rfl⟩
        refine
          ⟨input :: before, other, after, first, tail, rfl,
            hOther, ?_⟩
        rw [record, List.append_assoc]
      · exact ⟨[], input, rest, sent, tail, rfl, hAnswer, rfl⟩

/- No message moves the gate, and switches move it as they say. -/
theorem gate_process
    (run : EngineRun)
    (inputs : List EngineInput) :
    (run.process inputs).engine.gate =
      gateAfter run.engine.gate inputs := by
  have hTake :
      ∀ (run : EngineRun) (input : EngineInput),
        (run.take input).engine.gate =
          input.switch run.engine.gate := by
    intro run input
    cases input with
    | pause reason => rfl
    | resume => rfl
    | message stamp envelope =>
        rcases run.exists_step_of_take_message stamp envelope with
          ⟨step, hStep, hReaction⟩
        rw [hStep]
        exact hReaction.gate
  induction inputs generalizing run with
  | nil => rfl
  | cons input rest ih =>
      have hRest := ih (run.take input)
      rw [hTake] at hRest
      exact hRest

end EngineRun

------------------------------------------------------------
-- What Goes To The Venue
------------------------------------------------------------

namespace Engine

variable {stamp : Stamp} {engine : Engine}
variable {envelope : Envelope TradingMessage} {step : EngineStep}

/-
  What goes to the venue on a message, with what is sent
  before it: a new submission that nothing speaks against,
  behind the event that says so, or a cancel of an order
  that can be cancelled.
-/
inductive Forwarding
    (stamp : Stamp)
    (engine : Engine)
    (envelope : Envelope TradingMessage) :
    List Outgoing → Prop where
  | submission
      (command : SubmitOrder)
      (hPayload : envelope.payload = .submitOrder command)
      (hNew : engine.blotter.find? command.orderId = none)
      (hShape : command.validate = .ok ())
      (hCheck : engine.gate.check command = .ok ()) :
      Forwarding stamp engine envelope
        [.published
          (publication stamp ⟨command.orderId, .submitted⟩)]
  | cancel
      (cancel : CancelOrder)
      (order : Order)
      (hPayload : envelope.payload = .cancelOrder cancel)
      (hOrder :
        engine.blotter.find? cancel.orderId = some order)
      (hCancel : order.canApply .cancelled = true) :
      Forwarding stamp engine envelope []

theorem exists_of_cancelRefusal?_eq_none
    {id : OrderId}
    (hRefusal : engine.cancelRefusal? id = none) :
    ∃ order,
      engine.blotter.find? id = some order ∧
        order.canApply .cancelled = true := by
  unfold cancelRefusal? at hRefusal
  split at hRefusal
  · cases hRefusal
  · rename_i order hOrder
    split at hRefusal
    · rename_i hCancel
      exact ⟨order, hOrder, hCancel⟩
    · cases hRefusal

theorem forwarded_notMem_outgoing
    (hCommands : step.commands = [])
    (sent : Envelope TradingMessage) :
    .forwarded sent ∉ step.outgoing := by
  simp [EngineStep.outgoing, hCommands]

/- What goes to the venue is the message as it came. -/
theorem Reaction.forwarding
    {sent : Envelope TradingMessage}
    {first rest : List Outgoing}
    (hReaction : Reaction stamp engine envelope step)
    (hSent : step.outgoing = first ++ .forwarded sent :: rest) :
    sent = envelope ∧ Forwarding stamp engine envelope first := by
  have hMem : .forwarded sent ∈ step.outgoing := by
    rw [hSent]
    exact List.mem_append_right _ List.mem_cons_self
  cases hReaction with
  | opened command hPayload hNew =>
      rcases engine.admission_cases command with
        ⟨hAdmitted, hShape, hCheck⟩ | ⟨reason, hRefused⟩
      · have hSame :
            (⟨envelope.header, .submitOrder command⟩ :
                Envelope TradingMessage) =
              envelope := by
          rw [← hPayload]
        have hOutgoing :
            [.published
                (publication stamp ⟨command.orderId, .submitted⟩),
              .forwarded envelope] =
              first ++ .forwarded sent :: rest := by
          rw [← hSent]
          simp [EngineStep.outgoing, hAdmitted, hSame]
        rcases first with _ | ⟨event, _ | ⟨other, first⟩⟩
        · cases hOutgoing
        · cases hOutgoing
          exact
            ⟨rfl, .submission command hPayload hNew hShape hCheck⟩
        · simp at hOutgoing
      · refine absurd hMem (forwarded_notMem_outgoing ?_ sent)
        exact if_neg (admission_ne_submitted hRefused)
  | cancelForwarded cancel hPayload hRefusal =>
      rcases exists_of_cancelRefusal?_eq_none hRefusal with
        ⟨order, hOrder, hCancel⟩
      have hSame :
          (⟨envelope.header, .cancelOrder cancel⟩ :
              Envelope TradingMessage) =
            envelope := by
        rw [← hPayload]
      have hOutgoing :
          [.forwarded envelope] =
            first ++ .forwarded sent :: rest := by
        rw [← hSent]
        simp [EngineStep.outgoing, hSame]
      rcases first with _ | ⟨event, first⟩
      · cases hOutgoing
        exact ⟨rfl, .cancel cancel order hPayload hOrder hCancel⟩
      · simp at hOutgoing
  | _ => exact absurd hMem (forwarded_notMem_outgoing rfl sent)

end Engine

namespace EngineRun

variable {id : OrderId} {run : EngineRun}

/-
  What goes to the venue is a message that was taken, and
  goes there as it came. What was sent by then was sent on
  earlier inputs, but for the event that an order is
  submitted.
-/
theorem exists_forwarding
    {inputs : List EngineInput}
    {sent later : List Outgoing}
    {envelope : Envelope TradingMessage}
    (hRecord :
      run.record inputs = sent ++ .forwarded envelope :: later) :
    ∃ before stamp after first,
      inputs = before ++ .message stamp envelope :: after ∧
        Engine.Forwarding stamp (run.process before).engine
            envelope first ∧
          sent = run.record before ++ first := by
  rcases exists_answer_of_record hRecord with
    ⟨before, input, after, first, rest, rfl, hAnswer, rfl⟩
  cases input with
  | pause reason => simp [answer] at hAnswer
  | resume => simp [answer] at hAnswer
  | message stamp other =>
      rcases (run.process before).exists_step_of_answer_message
          stamp other with
        ⟨step, hStep, _, hReaction⟩
      rcases hReaction.forwarding (hStep.symm.trans hAnswer) with
        ⟨rfl, hForwarding⟩
      exact ⟨before, stamp, after, first, rfl, hForwarding, rfl⟩

------------------------------------------------------------
-- What Was Admitted
------------------------------------------------------------

/- The engine knows an order if and only if somebody asked for it. -/
theorem find?_process_eq_none_iff
    (gate : RiskGate)
    (inputs : List EngineInput)
    (id : OrderId) :
    ((start gate).process inputs).engine.blotter.find? id = none ↔
      firstSubmission? id inputs = none := by
  have hTold :
      ((start gate).process inputs).TellsHistory id inputs := by
    apply process_induction (TellsHistory id)
    · intro seen run input hTold
      exact hTold.take input
    · exact ⟨rfl, rfl⟩
  unfold TellsHistory at hTold
  cases hOrder :
      ((start gate).process inputs).engine.blotter.find? id with
  | none =>
      rw [hOrder] at hTold
      simp [hTold.1]
  | some order =>
      rw [hOrder] at hTold
      rcases hTold with ⟨_, _, command, hFirst, _⟩
      simp [hFirst]

/-
  What went to the venue for an order: nothing if the engine
  does not know it or has turned it down, and otherwise one
  submission.
-/
def Admits
    (id : OrderId)
    (run : EngineRun) : Prop :=
  match run.engine.blotter.find? id with
  | none => submissionsOf id run.commands = []
  | some order =>
      (∃ command, submissionsOf id run.commands = [command]) ∨
        (order.state = .invalid ∨ order.state = .denied) ∧
          submissionsOf id run.commands = []

theorem Admits.follow
    {envelope : Envelope TradingMessage}
    {step : EngineStep}
    (hAdmits : run.Admits id)
    (hChange :
      Engine.OrderChange run.engine envelope id step) :
    (run.follow step).Admits id := by
  have hEngine : (run.follow step).engine = step.engine := rfl
  have hSent :
      submissionsOf id (run.follow step).commands =
        submissionsOf id run.commands ++
          submissionsOf id step.commands :=
    submissionsOf_append id _ _
  unfold Admits at hAdmits ⊢
  rw [hEngine, hSent]
  cases hChange with
  | kept hFound _ hCommands =>
      rw [hFound, hCommands, List.append_nil]
      exact hAdmits
  | opened command occurrence order _ _ hNew hApply hFound _
      hAdmission =>
      -- Nothing went before, so what goes now is all there is.
      rw [hNew] at hAdmits
      rw [hFound, hAdmits, List.nil_append]
      have hState := Order.state_of_apply hApply
      rcases hAdmission with
        ⟨_, _, hCommands⟩ | ⟨reason, hRefused, hCommands⟩
      · exact Or.inl ⟨command, hCommands⟩
      · refine Or.inr ⟨?_, hCommands⟩
        rcases hRefused with rfl | rfl
        · exact Or.inl hState
        · exact Or.inr hState
  | advanced event order next _ hOrder hApply hFound _
      hCommands =>
      rw [hOrder] at hAdmits
      rw [hFound, hCommands, List.append_nil]
      rcases hAdmits with hOnce | ⟨hDown, _⟩
      · exact Or.inl hOnce
      · exact absurd hApply (Order.not_apply_of_turned_down hDown)

/- Every input lets through what it should. -/
theorem Admits.take
    (hAdmits : run.Admits id)
    (input : EngineInput) :
    (run.take input).Admits id := by
  cases input with
  | message stamp envelope =>
      rcases run.exists_step_of_take_message stamp envelope with
        ⟨step, hStep, hReaction⟩
      rw [hStep]
      exact hAdmits.follow (hReaction.orderChange id)
  | pause reason => exact hAdmits
  | resume => exact hAdmits

/- An engine lets through what it should, whatever it takes in. -/
theorem admits_process
    (gate : RiskGate)
    (inputs : List EngineInput)
    (id : OrderId) :
    ((start gate).process inputs).Admits id := by
  apply process_induction fun _ run => run.Admits id
  · intro seen run input hAdmits
    exact hAdmits.take input
  · rfl

/- At most one submission goes to the venue for each order. -/
theorem Admits.length_le_one
    (hAdmits : run.Admits id) :
    (submissionsOf id run.commands).length ≤ 1 := by
  unfold Admits at hAdmits
  split at hAdmits
  · simp [hAdmits]
  · rcases hAdmits with ⟨command, hSent⟩ | ⟨_, hSent⟩
    · simp [hSent]
    · simp [hSent]

/- The submission of an order that can be cancelled has gone. -/
theorem Admits.exists_of_canApply
    {order : Order}
    (hAdmits : run.Admits id)
    (hOrder : run.engine.blotter.find? id = some order)
    (hCancel : order.canApply .cancelled = true) :
    ∃ command, submissionsOf id run.commands = [command] := by
  unfold Admits at hAdmits
  rw [hOrder] at hAdmits
  rcases hAdmits with hSent | ⟨hDown | hDown, _⟩
  · exact hSent
  · unfold Order.canApply at hCancel
    rw [hDown] at hCancel
    cases hCancel
  · unfold Order.canApply at hCancel
    rw [hDown] at hCancel
    cases hCancel

theorem take_duplicate
    {stamp : Stamp}
    {envelope : Envelope TradingMessage}
    {command : SubmitOrder}
    (hPayload : envelope.payload = .submitOrder command)
    (hKnown : run.engine.blotter.find? command.orderId ≠ none) :
    run.take (.message stamp envelope) = run ∧
      run.answer (.message stamp envelope) = [] := by
  rcases run.exists_step_of_answer_message stamp envelope with
    ⟨step, hAnswer, hTake, hReaction⟩
  rw [hAnswer, hTake]
  cases hReaction with
  | duplicate => simp [follow, EngineStep.outgoing]
  | opened other hOther hNew =>
      cases hOther.symm.trans hPayload
      exact absurd hNew hKnown
  | cancelRefused _ _ hOther => cases hOther.symm.trans hPayload
  | cancelForwarded _ hOther => cases hOther.symm.trans hPayload
  | reportUnknown _ hOther => cases hOther.symm.trans hPayload
  | reportApplied _ _ _ hOther => cases hOther.symm.trans hPayload
  | reportRefused _ _ _ hOther => cases hOther.symm.trans hPayload
  | cancelRejectionPassed _ hOther =>
      cases hOther.symm.trans hPayload
  | transitionRejectionPassed _ hOther =>
      cases hOther.symm.trans hPayload

------------------------------------------------------------
-- The Guard Of The Venue
------------------------------------------------------------

/-
  How an engine guards the venue, with any inputs from its
  empty state on:

    * a submission that goes to the venue goes as it came;
      it is the first with its identifier, and has passed
      the checks of its shape and of the gate as it was
      then; last before it the order was published as
      submitted;
    * no order is submitted to the venue twice;
    * a cancel that goes to the venue comes after the
      submission of its order, which is open then;
    * a submission that comes next, with an identifier that
      was used before, changes nothing, and nothing is sent
      on it.
-/
structure GuardsVenue
    (gate : RiskGate)
    (inputs : List EngineInput) : Prop where
  submission :
    ∀ sent envelope later command,
      (start gate).record inputs =
          sent ++ .forwarded envelope :: later →
        envelope.payload = .submitOrder command →
          ∃ before stamp after,
            inputs = before ++ .message stamp envelope :: after ∧
              firstSubmission? command.orderId before = none ∧
                command.validate = .ok () ∧
                  (gateAfter gate before).check command = .ok () ∧
                    sent =
                      (start gate).record before ++
                        [.published
                          (Engine.publication stamp
                            ⟨command.orderId, .submitted⟩)]
  once :
    ∀ id,
      (submissionsOf id
        (((start gate).record inputs).filterMap
          Outgoing.forwarded?)).length ≤ 1
  cancel :
    ∀ sent envelope later cancel,
      (start gate).record inputs =
          sent ++ .forwarded envelope :: later →
        envelope.payload = .cancelOrder cancel →
          (∃ submission command,
            .forwarded submission ∈ sent ∧
              submission.payload = .submitOrder command ∧
                command.orderId = cancel.orderId) ∧
            ∃ before stamp after order,
              inputs = before ++ .message stamp envelope :: after ∧
                sent = (start gate).record before ∧
                  ((start gate).process
                      before).engine.blotter.find?
                        cancel.orderId =
                      some order ∧
                    order.isOpen = true
  repeated :
    ∀ stamp envelope command,
      envelope.payload = .submitOrder command →
        firstSubmission? command.orderId inputs ≠ none →
          ((start gate).process inputs).take
                (.message stamp envelope) =
              (start gate).process inputs ∧
            ((start gate).process inputs).answer
                (.message stamp envelope) =
              []

/- The submission of an order whose cancel goes on was sent before. -/
theorem exists_forwarded_of_canApply
    {gate : RiskGate}
    {inputs : List EngineInput}
    {order : Order}
    (hOrder :
      ((start gate).process inputs).engine.blotter.find? id =
        some order)
    (hCancel : order.canApply .cancelled = true) :
    ∃ submission command,
      .forwarded submission ∈ (start gate).record inputs ∧
        submission.payload = .submitOrder command ∧
          command.orderId = id := by
  rcases (admits_process gate inputs id).exists_of_canApply hOrder
      hCancel with
    ⟨command, hSent⟩
  have hMem :
      command ∈
        submissionsOf id ((start gate).process inputs).commands := by
    rw [hSent]
    exact List.mem_singleton_self command
  rcases List.mem_filterMap.mp hMem with
    ⟨submission, hSubmission, hCommand⟩
  rw [((start gate).sent_process inputs).2] at hSubmission
  rcases List.mem_filterMap.mp hSubmission with
    ⟨out, hOut, hForwarded⟩
  cases out with
  | published other => cases hForwarded
  | forwarded other =>
      cases hForwarded
      exact
        ⟨submission, command, hOut,
          payload_of_submissionOf? hCommand⟩

/-
  An engine guards the venue, whatever it takes in and
  whenever its gate is shut and opened.
-/
theorem guards_venue
    (gate : RiskGate)
    (inputs : List EngineInput) :
    GuardsVenue gate inputs where
  submission := by
    intro sent envelope later command hRecord hPayload
    rcases exists_forwarding hRecord with
      ⟨before, stamp, after, first, hInputs, hForwarding, rfl⟩
    cases hForwarding with
    | submission other hOther hNew hShape hCheck =>
        cases hOther.symm.trans hPayload
        rw [gate_process] at hCheck
        exact
          ⟨before, stamp, after, hInputs,
            (find?_process_eq_none_iff gate before _).mp hNew,
            hShape, hCheck, rfl⟩
    | cancel cancel order hOther =>
        cases hOther.symm.trans hPayload
  once := by
    intro id
    have hOnce := (admits_process gate inputs id).length_le_one
    rw [((start gate).sent_process inputs).2] at hOnce
    exact hOnce
  cancel := by
    intro sent envelope later cancel hRecord hPayload
    rcases exists_forwarding hRecord with
      ⟨before, stamp, after, first, hInputs, hForwarding, rfl⟩
    cases hForwarding with
    | submission command hOther =>
        cases hOther.symm.trans hPayload
    | cancel other order hOther hOrder hCancel =>
        cases hOther.symm.trans hPayload
        rw [List.append_nil]
        refine
          ⟨exists_forwarded_of_canApply hOrder hCancel, before,
            stamp, after, order, hInputs, rfl, hOrder,
            Order.isOpen_of_canApply_cancelled hCancel⟩
  repeated := by
    intro stamp envelope command hPayload hKnown
    apply take_duplicate hPayload
    intro hNone
    apply hKnown
    exact (find?_process_eq_none_iff gate inputs _).mp hNone

end EngineRun

end OrderDesk
