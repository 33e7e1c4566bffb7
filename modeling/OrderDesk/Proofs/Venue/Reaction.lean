import OrderDesk.Proofs.Engine.Reaction
import OrderDesk.Venue.Paper

/-
  This file says once what a message can do to a venue that
  reports to somebody.

  Key definitions include:
    * `PaperVenue.Reaction`
    * `PaperVenue.OrderChange`

  Key theorems include:
    * `PaperVenue.reaction_handle`
    * `PaperVenue.Reaction.connected`
    * `PaperVenue.Reaction.of_mem_pending`
    * `PaperVenue.Reaction.payload_cases`
    * `PaperVenue.Reaction.orderChange`
-/

namespace OrderDesk

namespace PaperVenue

/-
  What a message can do: one case for each way through the
  handlers.
-/
inductive Reaction
    (stamp : Stamp)
    (venue : PaperVenue)
    (envelope : Envelope TradingMessage) :
    VenueStep → Prop where
  | accepted
      (command : SubmitOrder)
      (hPayload : envelope.payload = .submitOrder command) :
      Reaction stamp venue envelope
        { venue :=
            { venue.rest command.orderId with
              accepted := venue.accepted + 1 }
          reports :=
            [Envelope.response stamp
              (.orderEvent
                ⟨command.orderId, .accepted venue.nextOrderName⟩)
              envelope.id]
          pending :=
            some ⟨command.orderId, venue.fillOf command⟩ }
  | cancelled
      (cancel : CancelOrder)
      (hPayload : envelope.payload = .cancelOrder cancel)
      (hResting : venue.isResting cancel.orderId = true) :
      Reaction stamp venue envelope
        { venue := venue.unrest cancel.orderId
          reports :=
            [Envelope.response stamp
              (.orderEvent ⟨cancel.orderId, .cancelled⟩)
              envelope.id] }
  | cancelRefused
      (cancel : CancelOrder)
      (reason : String)
      (hPayload : envelope.payload = .cancelOrder cancel)
      (hGone : venue.isResting cancel.orderId = false) :
      Reaction stamp venue envelope
        { venue
          reports :=
            [Envelope.response stamp
              (.cancelRejected ⟨cancel.orderId, none, reason⟩)
              envelope.id] }
  | ignored
      (hPayload :
        ∀ command, envelope.payload ≠ .submitOrder command)
      (hNoCancel :
        ∀ cancel, envelope.payload ≠ .cancelOrder cancel) :
      Reaction stamp venue envelope
        { venue, isHandled := false }

/-
  A venue that reports to somebody reacts to every message
  in one of these ways.
-/
theorem reaction_handle
    {venue : PaperVenue}
    (stamp : Stamp)
    (envelope : Envelope TradingMessage)
    (hConnected : venue.connected = true) :
    Reaction stamp venue envelope
      (venue.handle stamp envelope) := by
  unfold handle
  cases hPayload : envelope.payload with
  | submitOrder command =>
      have hFill :
          { venue.rest command.orderId with
            accepted := venue.accepted + 1 }.fillOf command =
            venue.fillOf command := by
        simp only [fillOf, settings_rest]
      have hRest :
          { venue.rest command.orderId with
            accepted := venue.accepted + 1 }.connected = true := by
        rw [connected_rest, hConnected]
      dsimp only [onSubmit]
      rw [hFill, report_of_connected _ hRest]
      exact .accepted command hPayload
  | cancelOrder cancel =>
      dsimp only [onCancel]
      by_cases hResting : venue.isResting cancel.orderId
      · have hUnrest :
            (venue.unrest cancel.orderId).connected = true :=
          hConnected
        rw [if_pos hResting, report_of_connected _ hUnrest]
        exact .cancelled cancel hPayload hResting
      · rw [if_neg hResting, report_of_connected _ hConnected]
        exact
          .cancelRefused cancel _ hPayload
            (Bool.eq_false_iff.mpr hResting)
  | _ =>
      apply Reaction.ignored
      · intro command hCommand
        cases hPayload.symm.trans hCommand
      · intro cancel hCancel
        cases hPayload.symm.trans hCancel

variable {stamp : Stamp} {venue : PaperVenue}
variable {envelope : Envelope TradingMessage}
variable {step : VenueStep}

/- A venue goes on reporting to whom it reports. -/
theorem Reaction.connected
    (hReaction : Reaction stamp venue envelope step) :
    step.venue.connected = venue.connected := by
  cases hReaction with
  | accepted command => exact connected_rest venue _
  | cancelled cancel => rfl
  | cancelRefused cancel => rfl
  | ignored => rfl

theorem Reaction.settings
    (hReaction : Reaction stamp venue envelope step) :
    step.venue.settings = venue.settings := by
  cases hReaction with
  | accepted command => exact settings_rest venue _
  | cancelled cancel => rfl
  | cancelRefused cancel => rfl
  | ignored => rfl

/- A fill is set for all of an order that was asked for. -/
theorem Reaction.of_mem_pending
    {fill : PendingFill}
    (hReaction : Reaction stamp venue envelope step)
    (hFill : fill ∈ step.pending) :
    ∃ command,
      envelope.payload = .submitOrder command ∧
        fill = ⟨command.orderId, venue.fillOf command⟩ := by
  cases hReaction with
  | accepted command hPayload =>
      cases hFill
      exact ⟨command, hPayload, rfl⟩
  | _ => cases hFill

/-
  What a venue says at once is that something other than a
  fill has happened to an order, or that a cancel was
  refused.
-/
theorem Reaction.payload_cases
    {report : Envelope TradingMessage}
    (hReaction : Reaction stamp venue envelope step)
    (hReport : report ∈ step.reports) :
    (∃ event,
        report.payload = .orderEvent event ∧
          event.occurrence.fill? = none) ∨
      ∃ rejection, report.payload = .cancelRejected rejection := by
  cases hReaction with
  | accepted command =>
      cases List.mem_singleton.mp hReport
      exact Or.inl ⟨_, rfl, rfl⟩
  | cancelled cancel =>
      cases List.mem_singleton.mp hReport
      exact Or.inl ⟨_, rfl, rfl⟩
  | cancelRefused cancel =>
      cases List.mem_singleton.mp hReport
      exact Or.inr ⟨_, rfl⟩
  | ignored => cases hReport

------------------------------------------------------------
-- What Happens To One Order
------------------------------------------------------------

/-
  What a message does to the order under `id`: nothing, and
  a cancel of it comes too late; or the order is accepted
  and its fill is decided; or it is cancelled. What is
  reported of the order goes along.
-/
inductive OrderChange
    (venue : PaperVenue)
    (envelope : Envelope TradingMessage)
    (id : OrderId)
    (step : VenueStep) : Prop where
  | kept
      (hSubmission : submissionOf? id envelope = none)
      (hCancel :
        isCancelOf id envelope = true →
          venue.isResting id = false)
      (hEvents : eventsAbout id step.reports = [])
      (hResting :
        step.venue.isResting id = venue.isResting id)
      (hPending :
        step.pending.toList.filter
            (fun fill => fill.orderId = id) =
          [])
  | accepted
      (command : SubmitOrder)
      (hSubmission : submissionOf? id envelope = some command)
      (hEvents :
        eventsAbout id step.reports =
          [⟨id, .accepted venue.nextOrderName⟩])
      (hResting : step.venue.isResting id = true)
      (hPending :
        step.pending.toList.filter
            (fun fill => fill.orderId = id) =
          [⟨id, venue.fillOf command⟩])
  | cancelled
      (hSubmission : submissionOf? id envelope = none)
      (hCancel : isCancelOf id envelope = true)
      (hResting : venue.isResting id = true)
      (hEvents : eventsAbout id step.reports = [⟨id, .cancelled⟩])
      (hGone : step.venue.isResting id = false)
      (hPending :
        step.pending.toList.filter
            (fun fill => fill.orderId = id) =
          [])

/- A reaction changes an order in one of three ways. -/
theorem Reaction.orderChange
    (hReaction : Reaction stamp venue envelope step)
    (id : OrderId) :
    OrderChange venue envelope id step := by
  cases hReaction with
  | accepted command hPayload =>
      have hRest := venue.isResting_rest command.orderId id
      by_cases hId : command.orderId = id
      · apply OrderChange.accepted command
        · simp [submissionOf?, hPayload, hId]
        · simp [eventsAbout, eventAbout?, Envelope.response, hId]
        · rw [decide_eq_true hId.symm, Bool.true_or] at hRest
          exact hRest
        · simp [hId]
      · apply OrderChange.kept
        · simp [submissionOf?, hPayload, hId]
        · simp [isCancelOf, hPayload]
        · simp [eventsAbout, eventAbout?, Envelope.response, hId]
        · rw [decide_eq_false (Ne.symm hId), Bool.false_or] at hRest
          exact hRest
        · simp [hId]
  | cancelled cancel hPayload hResting =>
      have hUnrest := venue.isResting_unrest cancel.orderId id
      by_cases hId : cancel.orderId = id
      · apply OrderChange.cancelled
        · simp [submissionOf?, hPayload]
        · simp [isCancelOf, hPayload, hId]
        · rw [← hId]
          exact hResting
        · simp [eventsAbout, eventAbout?, Envelope.response, hId]
        · rw [hUnrest]
          simp [hId]
        · rfl
      · apply OrderChange.kept
        · simp [submissionOf?, hPayload]
        · simp [isCancelOf, hPayload, hId]
        · simp [eventsAbout, eventAbout?, Envelope.response, hId]
        · rw [hUnrest]
          simp [Ne.symm hId]
        · rfl
  | cancelRefused cancel reason hPayload hGone =>
      apply OrderChange.kept
      · simp [submissionOf?, hPayload]
      · intro hCancel
        have hId : cancel.orderId = id := by
          simpa [isCancelOf, hPayload] using hCancel
        rw [← hId]
        exact hGone
      · simp [eventsAbout, eventAbout?, Envelope.response]
      · rfl
      · rfl
  | ignored hPayload hNoCancel =>
      apply OrderChange.kept
      · unfold submissionOf?
        cases hKind : envelope.payload with
        | submitOrder command => exact absurd hKind (hPayload command)
        | _ => rfl
      · unfold isCancelOf
        cases hKind : envelope.payload with
        | cancelOrder cancel => exact absurd hKind (hNoCancel cancel)
        | _ => simp
      · rfl
      · rfl
      · rfl

end PaperVenue

end OrderDesk
