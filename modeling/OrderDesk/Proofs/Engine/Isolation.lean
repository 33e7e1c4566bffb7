import Mathlib.Data.List.Forall2
import OrderDesk.Proofs.Engine.Run

/-
  This file proves that orders do not interfere: what
  becomes of an order, and what an engine says about it,
  comes of the messages about that order alone. All others
  may be left out, and may come before or after.

  New events are given stamps that nothing else depends on,
  so two runs are compared up to the stamps of new events.

  Key definitions include:
    * `Envelope.SameUpToStamp`
    * `EngineInput.concerns`
    * `EngineRun.AgreeOn`
    * `Engine.KeepsOrdersApart`

  Key theorems include:
    * `Engine.Reaction.frame`
    * `Engine.Reaction.exists_same`
    * `EngineRun.AgreeOn.process`
    * `Engine.keepsOrdersApart`
-/

namespace OrderDesk

------------------------------------------------------------
-- Messages About One Order
------------------------------------------------------------

/- The message is about the given order. -/
def isAbout
    (id : OrderId)
    (envelope : Envelope TradingMessage) : Bool :=
  envelope.payload.orderId = id

/- The messages about the given order. -/
def messagesAbout
    (id : OrderId)
    (envelopes : List (Envelope TradingMessage)) :
    List (Envelope TradingMessage) :=
  envelopes.filter (isAbout id)

@[simp] theorem messagesAbout_append
    (id : OrderId)
    (first second : List (Envelope TradingMessage)) :
    messagesAbout id (first ++ second) =
      messagesAbout id first ++ messagesAbout id second :=
  List.filter_append ..

theorem messagesAbout_eq_self
    {id : OrderId}
    {envelopes : List (Envelope TradingMessage)}
    (hAbout :
      ∀ envelope ∈ envelopes, envelope.payload.orderId = id) :
    messagesAbout id envelopes = envelopes := by
  unfold messagesAbout
  rw [List.filter_eq_self]
  intro envelope hEnvelope
  simp [isAbout, hAbout envelope hEnvelope]

theorem messagesAbout_eq_nil
    {id other : OrderId}
    {envelopes : List (Envelope TradingMessage)}
    (hOther :
      ∀ envelope ∈ envelopes, envelope.payload.orderId = other)
    (hNe : other ≠ id) :
    messagesAbout id envelopes = [] := by
  unfold messagesAbout
  rw [List.filter_eq_nil_iff]
  intro envelope hEnvelope
  simp [isAbout, hOther envelope hEnvelope, hNe]

/-
  An input has to do with an order if it is a message about
  that order. A switch of the gate has to do with all.
-/
def EngineInput.concerns
    (id : OrderId) :
    EngineInput → Bool
| .message _ envelope => isAbout id envelope
| .pause _ => true
| .resume => true

------------------------------------------------------------
-- Messages Up To Stamps
------------------------------------------------------------

/-
  Two messages are one and the same, or they are new events
  that differ in their stamps only.
-/
inductive Envelope.SameUpToStamp :
    Envelope TradingMessage → Envelope TradingMessage → Prop where
  | same
      (envelope : Envelope TradingMessage) :
      SameUpToStamp envelope envelope
  | event
      (stamp other : Stamp)
      (payload : TradingMessage) :
      SameUpToStamp
        (Envelope.event stamp payload)
        (Envelope.event other payload)

namespace Envelope.SameUpToStamp

variable {first second third : Envelope TradingMessage}

/- It does not matter which of two messages is named first. -/
theorem symm
    (hSame : first.SameUpToStamp second) :
    second.SameUpToStamp first := by
  cases hSame with
  | same => exact .same _
  | event stamp other payload => exact .event other stamp payload

theorem trans
    (hSame : first.SameUpToStamp second)
    (hNext : second.SameUpToStamp third) :
    first.SameUpToStamp third := by
  cases hSame with
  | same => exact hNext
  | event stamp other payload =>
      -- A new event says in two ways how it was stamped, so
      -- that only its payload is known to be the same.
      generalize hMiddle : Envelope.event other payload = middle
        at hNext
      cases hNext with
      | same =>
          subst hMiddle
          exact .event stamp other payload
      | event stamp' other' payload' =>
          have hPayload : payload = payload' :=
            congrArg Envelope.payload hMiddle
          subst hPayload
          exact .event stamp other' payload

end Envelope.SameUpToStamp

theorem forall₂_sameUpToStamp_refl
    (envelopes : List (Envelope TradingMessage)) :
    List.Forall₂ Envelope.SameUpToStamp envelopes envelopes :=
  List.forall₂_same.mpr fun envelope _ => .same envelope

/- Rows that are alike message by message are like the same rows. -/
theorem forall₂_sameUpToStamp_trans
    {first second third : List (Envelope TradingMessage)}
    (hSame : List.Forall₂ Envelope.SameUpToStamp first second)
    (hNext : List.Forall₂ Envelope.SameUpToStamp second third) :
    List.Forall₂ Envelope.SameUpToStamp first third := by
  induction hSame generalizing third with
  | nil => exact hNext
  | cons hHead _ ih =>
      cases hNext with
      | cons hHead' hTail' =>
          exact .cons (hHead.trans hHead') (ih hTail')

/-
  Two inputs are one and the same but for the stamp that is
  given to what the engine has to say.
-/
inductive EngineInput.SameUpToStamp :
    EngineInput → EngineInput → Prop where
  | message
      (stamp other : Stamp)
      (envelope : Envelope TradingMessage) :
      SameUpToStamp
        (.message stamp envelope)
        (.message other envelope)
  | pause
      (reason : String) :
      SameUpToStamp (.pause reason) (.pause reason)
  | resume :
      SameUpToStamp .resume .resume

theorem EngineInput.SameUpToStamp.refl
    (input : EngineInput) :
    input.SameUpToStamp input := by
  cases input with
  | message stamp envelope => exact .message stamp stamp envelope
  | pause reason => exact .pause reason
  | resume => exact .resume

------------------------------------------------------------
-- One Message
------------------------------------------------------------

namespace Engine

/- What happens first to an order is up to the gate. -/
theorem admission_congr
    {first second : Engine}
    (hGate : first.gate = second.gate)
    (command : SubmitOrder) :
    first.admission command = second.admission command := by
  unfold admission
  rw [hGate]

theorem opened_congr
    {first second : Engine}
    (hGate : first.gate = second.gate)
    (command : SubmitOrder) :
    first.opened command = second.opened command := by
  unfold opened
  rw [admission_congr hGate]

/- Whether a cancel is refused is up to the order. -/
theorem cancelRefusal?_congr
    {first second : Engine}
    {id : OrderId}
    (hOrder : first.blotter.find? id = second.blotter.find? id) :
    first.cancelRefusal? id = second.cancelRefusal? id := by
  unfold cancelRefusal?
  rw [hOrder]

/- A refused report is refused under the identifier it names. -/
theorem orderId_reportRefusal
    (order : Order)
    (event : OrderEvent)
    (e : OrderError) :
    (reportRefusal order event e).orderId = event.orderId := by
  cases e with
  | transition => rfl
  | fillOverflow => rfl

namespace Reaction

variable {stamp : Stamp}
variable {engine : Engine}
variable {envelope : Envelope TradingMessage}
variable {step : EngineStep}

/- What is published is about the order that the message is about. -/
theorem orderId_of_mem_events
    (hReaction : Reaction stamp engine envelope step) :
    ∀ sent ∈ step.events,
      sent.payload.orderId = envelope.payload.orderId := by
  intro sent hSent
  cases hReaction with
  | duplicate => cases hSent
  | cancelForwarded => cases hSent
  | reportUnknown => cases hSent
  | opened command hPayload =>
      cases List.mem_singleton.mp hSent
      rw [hPayload]
      rfl
  | cancelRefused cancel refusal hPayload hRefusal =>
      cases List.mem_singleton.mp hSent
      rw [hPayload]
      exact orderId_of_cancelRefusal? hRefusal
  | reportApplied event order next hPayload =>
      cases List.mem_singleton.mp hSent
      rw [hPayload]
      rfl
  | reportRefused event order e hPayload =>
      cases List.mem_singleton.mp hSent
      rw [hPayload]
      exact orderId_reportRefusal order event e
  | cancelRejectionPassed =>
      cases List.mem_singleton.mp hSent
      rfl
  | transitionRejectionPassed =>
      cases List.mem_singleton.mp hSent
      rfl

/- What goes to the venue is about the order of the message. -/
theorem orderId_of_mem_commands
    (hReaction : Reaction stamp engine envelope step) :
    ∀ sent ∈ step.commands,
      sent.payload.orderId = envelope.payload.orderId := by
  intro sent hSent
  cases hReaction with
  | opened command hPayload =>
      dsimp only at hSent
      split at hSent
      · cases List.mem_singleton.mp hSent
        rw [hPayload]
      · cases hSent
  | cancelForwarded cancel hPayload =>
      cases List.mem_singleton.mp hSent
      rw [hPayload]
  | _ => cases hSent

theorem find?_of_ne
    (hReaction : Reaction stamp engine envelope step)
    {id : OrderId}
    (hNe : envelope.payload.orderId ≠ id) :
    step.engine.blotter.find? id = engine.blotter.find? id := by
  cases hReaction with
  | opened command hPayload =>
      rw [hPayload] at hNe
      exact Blotter.find?_put_of_ne _ _ hNe.symm
  | reportApplied event order next hPayload =>
      rw [hPayload] at hNe
      exact Blotter.find?_put_of_ne _ _ hNe.symm
  | _ => rfl

/-
  What a message does is done to the order that it is about:
  another order stays as it was, and nothing is said about
  it.
-/
theorem frame
    (hReaction : Reaction stamp engine envelope step)
    {id : OrderId}
    (hNe : envelope.payload.orderId ≠ id) :
    step.engine.blotter.find? id = engine.blotter.find? id ∧
      messagesAbout id step.events = [] ∧
        messagesAbout id step.commands = [] :=
  ⟨hReaction.find?_of_ne hNe,
    messagesAbout_eq_nil hReaction.orderId_of_mem_events hNe,
    messagesAbout_eq_nil hReaction.orderId_of_mem_commands hNe⟩

/-
  An engine with the same gate and the same order under the
  identifier of the message does the same, whatever its
  other orders are.
-/
theorem exists_same
    (hReaction : Reaction stamp engine envelope step)
    {peer : Engine}
    (hGate : engine.gate = peer.gate)
    (hOrder :
      engine.blotter.find? envelope.payload.orderId =
        peer.blotter.find? envelope.payload.orderId)
    (other : Stamp) :
    ∃ step',
      Reaction other peer envelope step' ∧
        step.engine.blotter.find? envelope.payload.orderId =
            step'.engine.blotter.find? envelope.payload.orderId ∧
          List.Forall₂ Envelope.SameUpToStamp
              step.events step'.events ∧
            step.commands = step'.commands := by
  cases hReaction with
  | duplicate command order hPayload hKnown =>
      simp only [hPayload, TradingMessage.orderId] at hOrder ⊢
      exact
        ⟨_, .duplicate command order hPayload
          (hOrder.symm.trans hKnown), hOrder, .nil, rfl⟩
  | opened command hPayload hNew =>
      simp only [hPayload, TradingMessage.orderId] at hOrder ⊢
      refine
        ⟨_, .opened command hPayload (hOrder.symm.trans hNew),
          ?_, ?_, ?_⟩
      · rw [opened_congr hGate]
        exact
          (Blotter.find?_put_self _ _ _).trans
            (Blotter.find?_put_self _ _ _).symm
      · rw [admission_congr hGate]
        exact .cons (.event stamp other _) .nil
      · rw [admission_congr hGate]
  | cancelRefused cancel refusal hPayload hRefusal =>
      simp only [hPayload, TradingMessage.orderId] at hOrder ⊢
      exact
        ⟨_, .cancelRefused cancel refusal hPayload
          ((cancelRefusal?_congr hOrder).symm.trans hRefusal),
          hOrder, .cons (.event stamp other _) .nil, rfl⟩
  | cancelForwarded cancel hPayload hRefusal =>
      simp only [hPayload, TradingMessage.orderId] at hOrder ⊢
      exact
        ⟨_, .cancelForwarded cancel hPayload
          ((cancelRefusal?_congr hOrder).symm.trans hRefusal),
          hOrder, .nil, rfl⟩
  | reportUnknown event hPayload hUnknown =>
      simp only [hPayload, TradingMessage.orderId] at hOrder ⊢
      exact
        ⟨_, .reportUnknown event hPayload
          (hOrder.symm.trans hUnknown), hOrder, .nil, rfl⟩
  | reportApplied event order next hPayload hFound hApply =>
      simp only [hPayload, TradingMessage.orderId] at hOrder ⊢
      refine
        ⟨_, .reportApplied event order next hPayload
          (hOrder.symm.trans hFound) hApply, ?_,
          .cons (.event stamp other _) .nil, rfl⟩
      exact
        (Blotter.find?_put_self _ _ _).trans
          (Blotter.find?_put_self _ _ _).symm
  | reportRefused event order e hPayload hFound hApply =>
      simp only [hPayload, TradingMessage.orderId] at hOrder ⊢
      exact
        ⟨_, .reportRefused event order e hPayload
          (hOrder.symm.trans hFound) hApply, hOrder,
          .cons (.event stamp other _) .nil, rfl⟩
  | cancelRejectionPassed rejection hPayload =>
      exact
        ⟨_, .cancelRejectionPassed rejection hPayload, hOrder,
          .cons (.same envelope) .nil, rfl⟩
  | transitionRejectionPassed rejection hPayload =>
      exact
        ⟨_, .transitionRejectionPassed rejection hPayload, hOrder,
          .cons (.same envelope) .nil, rfl⟩

end Reaction

end Engine

------------------------------------------------------------
-- Agreement
------------------------------------------------------------

namespace EngineRun

/-
  Two runs agree on an order: it is stored the same in both,
  and both have said the same about it.
-/
structure AgreeOn
    (id : OrderId)
    (first second : EngineRun) : Prop where
  gate : first.engine.gate = second.engine.gate
  order :
    first.engine.blotter.find? id = second.engine.blotter.find? id
  events :
    List.Forall₂ Envelope.SameUpToStamp
      (messagesAbout id first.events)
      (messagesAbout id second.events)
  commands :
    messagesAbout id first.commands =
      messagesAbout id second.commands

namespace AgreeOn

variable {id : OrderId}
variable {first second third : EngineRun}

theorem refl
    (id : OrderId)
    (run : EngineRun) :
    AgreeOn id run run :=
  ⟨rfl, rfl, forall₂_sameUpToStamp_refl _, rfl⟩

/- It does not matter which of two runs is named first. -/
theorem symm
    (hAgree : AgreeOn id first second) :
    AgreeOn id second first :=
  ⟨hAgree.gate.symm, hAgree.order.symm,
    hAgree.events.flip.imp fun _ _ hSame => hSame.symm,
    hAgree.commands.symm⟩

theorem trans
    (hAgree : AgreeOn id first second)
    (hNext : AgreeOn id second third) :
    AgreeOn id first third := by
  refine
    ⟨hAgree.gate.trans hNext.gate,
      hAgree.order.trans hNext.order, ?_,
      hAgree.commands.trans hNext.commands⟩
  exact forall₂_sameUpToStamp_trans hAgree.events hNext.events

/- Runs that agree still do after a message about the order. -/
theorem follow
    (hAgree : AgreeOn id first second)
    {stamp other : Stamp}
    {envelope : Envelope TradingMessage}
    {step step' : EngineStep}
    (hReaction :
      Engine.Reaction stamp first.engine envelope step)
    (hReaction' :
      Engine.Reaction other second.engine envelope step')
    (hAbout : envelope.payload.orderId = id) :
    AgreeOn id (first.follow step) (second.follow step') := by
  have hOrder := hAgree.order
  rw [← hAbout] at hOrder
  rcases hReaction.exists_same hAgree.gate hOrder other with
    ⟨same, hSame, hAfter, hEvents, hCommands⟩
  cases hSame.unique hReaction'
  subst hAbout
  refine ⟨?_, hAfter, ?_, ?_⟩
  · exact
      hReaction.gate.trans
        (hAgree.gate.trans hReaction'.gate.symm)
  · unfold EngineRun.follow
    dsimp only
    rw [messagesAbout_append, messagesAbout_append,
      messagesAbout_eq_self hReaction.orderId_of_mem_events,
      messagesAbout_eq_self hReaction'.orderId_of_mem_events]
    exact List.rel_append hAgree.events hEvents
  · unfold EngineRun.follow
    dsimp only
    rw [messagesAbout_append, messagesAbout_append,
      hAgree.commands, hCommands]

/- Inputs that have to do with the order keep runs in agreement. -/
theorem take
    (hAgree : AgreeOn id first second)
    {input other : EngineInput}
    (hSame : input.SameUpToStamp other)
    (hConcerns : input.concerns id = true) :
    AgreeOn id (first.take input) (second.take other) := by
  cases hSame with
  | message stamp stamp' envelope =>
      rcases first.exists_step_of_take_message stamp envelope with
        ⟨step, hTake, hReaction⟩
      rcases second.exists_step_of_take_message stamp' envelope with
        ⟨step', hTake', hReaction'⟩
      rw [hTake, hTake']
      exact
        hAgree.follow hReaction hReaction'
          (of_decide_eq_true hConcerns)
  | pause reason =>
      refine ⟨?_, hAgree.order, hAgree.events, hAgree.commands⟩
      exact congrArg (RiskGate.pause · reason) hAgree.gate
  | resume =>
      refine ⟨?_, hAgree.order, hAgree.events, hAgree.commands⟩
      exact congrArg RiskGate.resume hAgree.gate

/- An input that has nothing to do with the order changes nothing. -/
theorem take_left
    (hAgree : AgreeOn id first second)
    {input : EngineInput}
    (hConcerns : input.concerns id = false) :
    AgreeOn id (first.take input) second := by
  cases input with
  | pause reason => cases hConcerns
  | resume => cases hConcerns
  | message stamp envelope =>
      rcases first.exists_step_of_take_message stamp envelope with
        ⟨step, hTake, hReaction⟩
      rcases hReaction.frame (of_decide_eq_false hConcerns) with
        ⟨hOrder, hEvents, hCommands⟩
      rw [hTake]
      refine ⟨?_, hOrder.trans hAgree.order, ?_, ?_⟩
      · exact hReaction.gate.trans hAgree.gate
      · unfold EngineRun.follow
        dsimp only
        rw [messagesAbout_append, hEvents, List.append_nil]
        exact hAgree.events
      · unfold EngineRun.follow
        dsimp only
        rw [messagesAbout_append, hCommands, List.append_nil]
        exact hAgree.commands

/-
  One run takes all inputs, and the other only those that
  have to do with the order, with whatever stamps.
-/
theorem process
    (hAgree : AgreeOn id first second)
    {inputs others : List EngineInput}
    (hOthers :
      List.Forall₂ EngineInput.SameUpToStamp
        (inputs.filter (·.concerns id)) others) :
    AgreeOn id (first.process inputs) (second.process others) := by
  induction inputs generalizing first second others with
  | nil =>
      cases hOthers
      exact hAgree
  | cons input inputs ih =>
      cases hConcerns : input.concerns id with
      | false =>
          rw [List.filter_cons_of_neg (by simp [hConcerns])]
            at hOthers
          exact ih (hAgree.take_left hConcerns) hOthers
      | true =>
          rw [List.filter_cons_of_pos hConcerns] at hOthers
          cases hOthers with
          | cons hSame hRest =>
              exact ih (hAgree.take hSame hConcerns) hRest

end AgreeOn

end EngineRun

------------------------------------------------------------
-- Orders Kept Apart
------------------------------------------------------------

/- All that an engine does, and has sent by then, on its inputs. -/
def Engine.run
    (engine : Engine)
    (inputs : List EngineInput) : EngineRun :=
  EngineRun.process ⟨engine, [], []⟩ inputs

/-
  For every order, an engine might as well be told only what
  has to do with that order, and two messages about
  different orders can come in either order. Stamps do not
  matter in either case.
-/
structure Engine.KeepsOrdersApart
    (engine : Engine) : Prop where
  alone :
    ∀ (inputs others : List EngineInput)
      (id : OrderId),
      List.Forall₂ EngineInput.SameUpToStamp
          (inputs.filter (·.concerns id)) others →
        EngineRun.AgreeOn id
          (engine.run inputs) (engine.run others)
  swap :
    ∀ (before after : List EngineInput)
      (stamp₁ stamp₂ stamp₃ stamp₄ : Stamp)
      (first second : Envelope TradingMessage),
      first.payload.orderId ≠ second.payload.orderId →
        ∀ id : OrderId,
          EngineRun.AgreeOn id
            (engine.run
              (before ++ .message stamp₁ first ::
                .message stamp₂ second :: after))
            (engine.run
              (before ++ .message stamp₃ second ::
                .message stamp₄ first :: after))

/-
  Of two messages about different orders at most one is
  about a given order, so the inputs that have to do with it
  come in the same order.
-/
theorem forall₂_concerns_swap
    (before after : List EngineInput)
    {stamp₁ stamp₂ stamp₃ stamp₄ : Stamp}
    {first second : Envelope TradingMessage}
    (hNe : first.payload.orderId ≠ second.payload.orderId)
    (id : OrderId) :
    List.Forall₂ EngineInput.SameUpToStamp
      ((before ++ .message stamp₁ first ::
        .message stamp₂ second :: after).filter (·.concerns id))
      ((before ++ .message stamp₃ second ::
        .message stamp₄ first :: after).filter (·.concerns id)) := by
  have hSame :
      ∀ inputs : List EngineInput,
        List.Forall₂ EngineInput.SameUpToStamp inputs inputs :=
    fun inputs => List.forall₂_same.mpr fun input _ => .refl input
  have hOne :
      ∀ (stamp : Stamp) (envelope : Envelope TradingMessage),
        (EngineInput.message stamp envelope).concerns id =
          decide (envelope.payload.orderId = id) :=
    fun _ _ => rfl
  rw [List.filter_append, List.filter_append]
  refine List.rel_append (hSame _) ?_
  simp only [List.filter_cons, hOne, decide_eq_true_eq]
  by_cases hFirst : first.payload.orderId = id
  · have hSecond : second.payload.orderId ≠ id :=
      fun hSecond => hNe (hFirst.trans hSecond.symm)
    simp only [if_pos hFirst, if_neg hSecond]
    exact .cons (.message _ _ _) (hSame _)
  · simp only [if_neg hFirst]
    split
    · exact .cons (.message _ _ _) (hSame _)
    · exact hSame _

/- Every engine keeps its orders apart. -/
theorem Engine.keepsOrdersApart
    (engine : Engine) :
    engine.KeepsOrdersApart where
  alone := by
    intro inputs others id hOthers
    exact (EngineRun.AgreeOn.refl id _).process hOthers
  swap := by
    intro before after stamp₁ stamp₂ stamp₃ stamp₄ first second
      hNe id
    -- Both rows of inputs are compared with the part of the
    -- second that has to do with the order.
    have hFirst :
        EngineRun.AgreeOn id
          (engine.run
            (before ++ .message stamp₁ first ::
              .message stamp₂ second :: after))
          (engine.run
            ((before ++ .message stamp₃ second ::
              .message stamp₄ first :: after).filter
                (·.concerns id))) :=
      (EngineRun.AgreeOn.refl id _).process
        (forall₂_concerns_swap before after hNe id)
    have hSecond :
        EngineRun.AgreeOn id
          (engine.run
            (before ++ .message stamp₃ second ::
              .message stamp₄ first :: after))
          (engine.run
            ((before ++ .message stamp₃ second ::
              .message stamp₄ first :: after).filter
                (·.concerns id))) :=
      (EngineRun.AgreeOn.refl id _).process
        (List.forall₂_same.mpr fun input _ => .refl input)
    exact hFirst.trans hSecond.symm

end OrderDesk
