import OrderDesk.Proofs.Engine.Reaction

/-
  This file proves what the engine passes on to the venue:
  at most the message that it takes, as it came, and only if
  that is something that a client may ask for.

  Key definitions include:
    * `Variant.pass?`
    * `isRequest`

  Key theorems include:
    * `Engine.Reaction.eq_of_mem_commands`
    * `Engine.Reaction.commands_cases`
    * `Engine.Reaction.isOpen_of_cancel_mem`
-/

namespace OrderDesk

------------------------------------------------------------
-- Requests
------------------------------------------------------------

/-
  Take a message as one of a kind and hand it on among all
  kinds, or refuse it if it is of another kind.
-/
def Variant.pass?
    {P K T : Type}
    (variant : Variant P K T)
    (envelope : Envelope P) : Option (Envelope P) :=
  match envelope.tryMap variant.extract with
  | .ok taken => some (taken.widen variant.embed)
  | .error _ => none

/- A message is something that a client may ask for. -/
def isRequest
    (envelope : Envelope TradingMessage) : Bool :=
  match envelope.payload with
  | .submitOrder _ | .cancelOrder _ => true
  | _ => false

/- A submission is handed on as it came. -/
theorem pass?_submissions_eq_some
    {envelope passed : Envelope TradingMessage}
    (hPassed :
      TradingMessage.submissions.pass? envelope = some passed) :
    passed = envelope ∧ isRequest envelope = true := by
  rcases envelope with ⟨header, payload⟩
  cases payload <;> cases hPassed
  exact ⟨rfl, rfl⟩

/- A cancel is handed on as it came. -/
theorem pass?_cancels_eq_some
    {envelope passed : Envelope TradingMessage}
    (hPassed :
      TradingMessage.cancels.pass? envelope = some passed) :
    passed = envelope ∧ isRequest envelope = true := by
  rcases envelope with ⟨header, payload⟩
  cases payload <;> cases hPassed
  exact ⟨rfl, rfl⟩

------------------------------------------------------------
-- Commands Of The Engine
------------------------------------------------------------

namespace Engine

variable {stamp : Stamp} {engine : Engine}
variable {envelope sent : Envelope TradingMessage}
variable {step : EngineStep}

/-
  The engine passes a command on by taking it as what it is
  and handing it on.
-/
theorem Reaction.pass?_of_mem_commands
    (hReaction : Reaction stamp engine envelope step)
    (hSent : sent ∈ step.commands) :
    TradingMessage.submissions.pass? envelope = some sent ∨
      TradingMessage.cancels.pass? envelope = some sent := by
  rcases envelope with ⟨header, payload⟩
  cases hReaction with
  | opened command hPayload =>
      dsimp only at hSent hPayload
      split at hSent
      · cases List.mem_singleton.mp hSent
        subst hPayload
        exact .inl rfl
      · cases hSent
  | cancelForwarded cancel hPayload =>
      cases List.mem_singleton.mp hSent
      dsimp only at hPayload
      subst hPayload
      exact .inr rfl
  | _ => cases hSent

/- What comes of one message is at most one command. -/
theorem Reaction.length_commands_le
    (hReaction : Reaction stamp engine envelope step) :
    step.commands.length ≤ 1 := by
  cases hReaction with
  | opened command =>
      dsimp only
      split <;> simp
  | _ => simp

/- What the engine passes on is a request, as it came. -/
theorem Reaction.eq_of_mem_commands
    (hReaction : Reaction stamp engine envelope step)
    (hSent : sent ∈ step.commands) :
    sent = envelope ∧ isRequest envelope = true := by
  rcases hReaction.pass?_of_mem_commands hSent with
    hPassed | hPassed
  · exact pass?_submissions_eq_some hPassed
  · exact pass?_cancels_eq_some hPassed

/- The engine passes on nothing or the request that it takes. -/
theorem Reaction.commands_cases
    (hReaction : Reaction stamp engine envelope step) :
    step.commands = [] ∨
      (step.commands = [envelope] ∧ isRequest envelope = true) := by
  have hLength := hReaction.length_commands_le
  match hCommands : step.commands with
  | [] => exact .inl rfl
  | [sent] =>
      have hMem : sent ∈ step.commands := by simp [hCommands]
      rcases hReaction.eq_of_mem_commands hMem with
        ⟨rfl, hRequest⟩
      exact .inr ⟨rfl, hRequest⟩
  | _ :: _ :: _ => simp [hCommands] at hLength

/- No request is passed on that was not taken, and none twice. -/
theorem Reaction.commands_sublist
    (hReaction : Reaction stamp engine envelope step) :
    step.commands.Sublist ([envelope].filter isRequest) := by
  rcases hReaction.commands_cases with hNil | ⟨hOne, hRequest⟩
  · rw [hNil]
    exact List.nil_sublist _
  · rw [hOne]
    simp [hRequest]

/- A cancel is passed on only if its order is open. -/
theorem Reaction.isOpen_of_cancel_mem
    {id : OrderId}
    (hReaction : Reaction stamp engine envelope step)
    (hSent : sent ∈ step.commands)
    (hCancel : isCancelOf id sent = true) :
    ∃ order,
      engine.blotter.find? id = some order ∧
        order.isOpen = true := by
  cases hReaction with
  | opened command hPayload =>
      dsimp only at hSent
      split at hSent
      · cases List.mem_singleton.mp hSent
        simp [isCancelOf] at hCancel
      · cases hSent
  | cancelForwarded cancel hPayload hRefusal =>
      cases List.mem_singleton.mp hSent
      have hId : cancel.orderId = id := by
        simpa [isCancelOf] using hCancel
      rw [hId] at hRefusal
      unfold cancelRefusal? at hRefusal
      split at hRefusal
      · cases hRefusal
      · rename_i order hOrder
        split at hRefusal
        · rename_i hLegal
          exact
            ⟨order, hOrder,
              Order.isOpen_of_canApply_cancelled hLegal⟩
        · cases hRefusal
  | _ => cases hSent

end Engine

end OrderDesk
