import OrderDesk.Proofs.Desk.Agreement
import OrderDesk.Proofs.Engine.Requests

/-
  This file proves that the answers of the venue can be told
  apart. A command that the engine passes on reaches the
  venue as the client wrote it, whether it had to wait on the
  way or not, and the answer to it names it. A refused cancel
  then reaches observers under the header that the venue
  gave it.

  All messages that were sent are kept apart from the floor,
  where they are consumed. What is on the floor tells how far
  they have come.

  Key definitions include:
    * `Answers`
    * `Mail`
    * `Floor.mailOf`
    * `Floor.Files`
    * `Floor.Correlates`

  Key theorems include:
    * `Engine.Reaction.refusals_eq`
    * `PaperVenue.Reaction.exists_answer`
    * `Floor.Files.move`
    * `Floor.correlates_play`
-/

namespace OrderDesk

------------------------------------------------------------
-- Responses
------------------------------------------------------------

/- A message is a response. -/
def isResponse
    (envelope : Envelope TradingMessage) : Bool :=
  envelope.category = .response

/- A message is a response that refuses a cancel. -/
def isRefusedResponse
    (envelope : Envelope TradingMessage) : Bool :=
  match envelope.payload with
  | .cancelRejected _ => isResponse envelope
  | _ => false

/-
  A message answers a command: it is a response to the very
  message that the command came in, and it accepts the order
  that was submitted, or cancels the order that was to be
  cancelled or refuses to.
-/
structure Answers
    (command answer : Envelope TradingMessage) : Prop where
  category : answer.category = .response
  correlationId : answer.correlationId = some command.id
  payload :
    (∃ order name,
      command.payload = .submitOrder order ∧
        answer.payload =
          .orderEvent ⟨order.orderId, .accepted name⟩) ∨
    ∃ cancel,
      command.payload = .cancelOrder cancel ∧
        (answer.payload =
            .orderEvent ⟨cancel.orderId, .cancelled⟩ ∨
          ∃ refusal,
            answer.payload = .cancelRejected refusal ∧
              refusal.orderId = cancel.orderId)

namespace Engine

variable {stamp : Stamp} {engine : Engine}
variable {envelope : Envelope TradingMessage}
variable {step : EngineStep}

/-
  The engine publishes a response that refuses a cancel if
  and only if it takes one, and as it came.
-/
theorem Reaction.refusals_eq
    (hReaction : Reaction stamp engine envelope step) :
    step.events.filter isRefusedResponse =
      [envelope].filter isRefusedResponse := by
  cases hReaction with
  | cancelRejectionPassed => rfl
  | transitionRejectionPassed => rfl
  | duplicate command order hPayload =>
      simp [isRefusedResponse, hPayload]
  | opened command hPayload =>
      simp [isRefusedResponse, hPayload, publication,
        Envelope.event, Envelope.make]
  | cancelRefused cancel refusal hPayload =>
      simp [isRefusedResponse, isResponse, hPayload,
        Envelope.event, Envelope.make, Envelope.category,
        Header.stamped]
  | cancelForwarded cancel hPayload =>
      simp [isRefusedResponse, hPayload]
  | reportUnknown event hPayload =>
      simp [isRefusedResponse, hPayload]
  | reportApplied event order next hPayload =>
      simp [isRefusedResponse, hPayload, publication,
        Envelope.event, Envelope.make]
  | reportRefused event order e hPayload =>
      simp [isRefusedResponse, hPayload, Envelope.event,
        Envelope.make]

end Engine

namespace PaperVenue

variable {stamp : Stamp} {venue : PaperVenue}
variable {envelope : Envelope TradingMessage}
variable {step : VenueStep}

/- The venue gives one answer to a request. -/
theorem Reaction.exists_answer
    (hReaction : Reaction stamp venue envelope step)
    (hRequest : isRequest envelope = true) :
    ∃ answer,
      step.reports = [answer] ∧ Answers envelope answer := by
  cases hReaction with
  | accepted command hPayload =>
      refine ⟨_, rfl, rfl, rfl, .inl ?_⟩
      exact ⟨command, _, hPayload, rfl⟩
  | cancelled cancel hPayload =>
      refine ⟨_, rfl, rfl, rfl, .inr ?_⟩
      exact ⟨cancel, hPayload, .inl rfl⟩
  | cancelRefused cancel reason hPayload =>
      refine ⟨_, rfl, rfl, rfl, .inr ?_⟩
      exact ⟨cancel, hPayload, .inr ⟨_, rfl, rfl⟩⟩
  | ignored hNoSubmit hNoCancel =>
      unfold isRequest at hRequest
      cases hPayload : envelope.payload with
      | submitOrder command => exact absurd hPayload (hNoSubmit _)
      | cancelOrder cancel => exact absurd hPayload (hNoCancel _)
      | _ =>
          rw [hPayload] at hRequest
          cases hRequest

end PaperVenue

theorem Answers.isResponse
    {command answer : Envelope TradingMessage}
    (hAnswers : Answers command answer) :
    isResponse answer = true ∧ isRequest answer = false := by
  refine ⟨decide_eq_true hAnswers.category, ?_⟩
  unfold isRequest
  rcases hAnswers.payload with
    ⟨order, name, _, hAnswer⟩ |
      ⟨cancel, _, hAnswer | ⟨refusal, hAnswer, _⟩⟩
  · rw [hAnswer]
  · rw [hAnswer]
  · rw [hAnswer]

theorem isRefusedResponse_of_isRequest
    {envelope : Envelope TradingMessage}
    (hRequest : isRequest envelope = true) :
    isRefusedResponse envelope = false := by
  unfold isRequest at hRequest
  unfold isRefusedResponse
  split at hRequest
  · rename_i hPayload
    rw [hPayload]
  · rename_i hPayload
    rw [hPayload]
  · cases hRequest

------------------------------------------------------------
-- Mail
------------------------------------------------------------

/-
  What was sent: the requests of clients, the commands that
  the engine passed on, those that the venue has taken, and
  all that the venue has reported.
-/
@[ext] structure Mail where
  asked : List (Envelope TradingMessage) := []
  forwarded : List (Envelope TradingMessage) := []
  taken : List (Envelope TradingMessage) := []
  reported : List (Envelope TradingMessage) := []

namespace Mail

instance : Append Mail where
  append mail later :=
    { asked := mail.asked ++ later.asked
      forwarded := mail.forwarded ++ later.forwarded
      taken := mail.taken ++ later.taken
      reported := mail.reported ++ later.reported }

section

variable (mail later : Mail)

@[simp] theorem asked_append :
    (mail ++ later).asked = mail.asked ++ later.asked :=
  rfl

@[simp] theorem forwarded_append :
    (mail ++ later).forwarded =
      mail.forwarded ++ later.forwarded :=
  rfl

@[simp] theorem taken_append :
    (mail ++ later).taken = mail.taken ++ later.taken :=
  rfl

@[simp] theorem reported_append :
    (mail ++ later).reported = mail.reported ++ later.reported :=
  rfl

@[simp] theorem append_empty :
    mail ++ ({} : Mail) = mail := by
  ext1 <;> simp

@[simp] theorem empty_append :
    ({} : Mail) ++ mail = mail := by
  ext1 <;> simp

end

theorem append_assoc
    (first second third : Mail) :
    first ++ second ++ third = first ++ (second ++ third) := by
  ext1 <;> simp

end Mail

namespace Floor

variable {floor : Floor} {mail : Mail}

/- What is sent in one move. -/
def mailOf
    (floor : Floor) :
    Move → Mail
| .submit header command =>
    { asked := [⟨header, .submitOrder command⟩] }
| .cancel header cancel =>
    { asked := [⟨header, .cancelOrder cancel⟩] }
| .serve stamp =>
    match floor.inbox with
    | [] => {}
    | envelope :: _ =>
        match floor.engine.handle stamp envelope with
        | .ok step => { forwarded := step.commands }
        | .error _ => {}
| .deliver stamp =>
    match floor.outbox with
    | [] => {}
    | envelope :: _ =>
        { taken := [envelope]
          reported := (floor.venue.handle stamp envelope).reports }
| .report stamp fill =>
    if fill ∈ floor.executed then
      { reported :=
          [Envelope.event stamp
            (.orderEvent ⟨fill.orderId, .filled fill.fill⟩)] }
    else
      {}
| _ => {}

/- What is sent in the course of moves. -/
def mailOfAll :
    Floor → List Move → Mail
| _, [] => {}
| floor, move :: rest =>
    floor.mailOf move ++ (floor.move move).mailOfAll rest

/-
  What was sent and what is on the floor agree. The commands
  that the venue has not taken wait for it, in order. All
  were requests of clients once, and further requests wait
  for the engine. The responses of the venue answer what it
  took, one by one, and those that refuse a cancel are
  published or on their way.
-/
structure Files
    (floor : Floor)
    (mail : Mail) : Prop where
  connected : floor.venue.connected = true
  requests : ∀ envelope ∈ mail.asked, isRequest envelope = true
  asked :
    (mail.forwarded ++ floor.inbox.filter isRequest).Sublist
      mail.asked
  forwarded :
    mail.forwarded =
      mail.taken ++ (floor.outbox ++ floor.waiting)
  answered :
    List.Forall₂ Answers mail.taken
      (mail.reported.filter isResponse)
  reports :
    ∀ envelope ∈ floor.reports, isRequest envelope = false
  refusals :
    (floor.published ++ (floor.inbox ++ floor.reports)).filter
        isRefusedResponse =
      mail.reported.filter isRefusedResponse

namespace Files

theorem new
    (gate : RiskGate)
    (settings : PaperSettings)
    (limit : Option { limit : Nat // 0 < limit }) :
    (Floor.new gate settings limit).Files {} where
  connected := rfl
  requests := by simp
  asked := List.Sublist.refl _
  forwarded := by
    cases limit <;> rfl
  answered := .nil
  reports := by simp [Floor.new]
  refusals := rfl

theorem turnWindow
    {turn :
      Window (Envelope TradingMessage) →
        List (Envelope TradingMessage) ×
          Window (Envelope TradingMessage)}
    (hFiles : floor.Files mail)
    (hFifo :
      ∀ window,
        (turn window).1 ++ (turn window).2.buffer =
          window.buffer) :
    (floor.turnWindow turn).Files mail := by
  have hOutbox := outbox_waiting_turnWindow floor hFifo
  rcases turnWindow_eq floor turn with ⟨window, outbox, hTurn⟩
  rw [hTurn] at hOutbox ⊢
  exact
    { connected := hFiles.connected
      requests := hFiles.requests
      asked := hFiles.asked
      forwarded := hFiles.forwarded.trans (by rw [hOutbox])
      answered := hFiles.answered
      reports := hFiles.reports
      refusals := hFiles.refusals }

theorem enqueue
    {envelope : Envelope TradingMessage}
    (hFiles : floor.Files mail)
    (hRequest : isRequest envelope = true) :
    (floor.enqueue envelope).Files
      (mail ++ { asked := [envelope] }) where
  connected := hFiles.connected
  requests := by
    rw [Mail.asked_append, List.forall_mem_append]
    exact ⟨hFiles.requests, by simpa using hRequest⟩
  asked := by
    have hAsked := hFiles.asked.append (List.Sublist.refl [envelope])
    simpa [Floor.enqueue, hRequest] using hAsked
  forwarded := by
    simpa [Floor.enqueue, waiting] using hFiles.forwarded
  answered := by simpa using hFiles.answered
  reports := hFiles.reports
  refusals := by
    have hNone := isRefusedResponse_of_isRequest hRequest
    simpa [Floor.enqueue, hNone] using hFiles.refusals

theorem arrive
    (hFiles : floor.Files mail) :
    floor.arrive.Files mail := by
  unfold Floor.arrive
  cases hReports : floor.reports with
  | nil => exact hFiles
  | cons envelope rest =>
      have hNone :
          isRequest envelope = false ∧
            ∀ other ∈ rest, isRequest other = false := by
        simpa [hReports] using hFiles.reports
      exact
        { connected := hFiles.connected
          requests := hFiles.requests
          asked := by
            simpa [Floor.enqueue, hNone.1] using hFiles.asked
          forwarded := hFiles.forwarded
          answered := hFiles.answered
          reports := hNone.2
          refusals := by
            have hRefusals := hFiles.refusals
            rw [hReports] at hRefusals
            simpa [Floor.enqueue] using hRefusals }

theorem serve
    (stamp : Stamp)
    (hFiles : floor.Files mail) :
    (floor.serve stamp).Files
      (mail ++ floor.mailOf (.serve stamp)) := by
  unfold Floor.serve mailOf
  cases hInbox : floor.inbox with
  | nil => simpa using hFiles
  | cons envelope rest =>
      rcases Engine.exists_reaction stamp floor.engine envelope
        with ⟨step, hHandle, hReaction⟩
      simp only [hHandle]
      have hOutbox :=
        outbox_waiting_foldl_command step.commands
          { floor with
            engine := step.engine
            inbox := rest
            published := floor.published ++ step.events }
      unfold Floor.followEngine
      rcases foldl_command_eq step.commands
          { floor with
            engine := step.engine
            inbox := rest
            published := floor.published ++ step.events } with
        ⟨window, outbox, hCommands⟩
      rw [hCommands] at hOutbox ⊢
      exact
        { connected := hFiles.connected
          requests := by simpa using hFiles.requests
          asked := by
            have hSent :=
              hReaction.commands_sublist.append
                (List.Sublist.refl (rest.filter isRequest))
            rw [← List.filter_append, List.singleton_append,
              ← hInbox] at hSent
            have hAsked :=
              (List.Sublist.refl mail.forwarded).append hSent
            simpa using hAsked.trans hFiles.asked
          forwarded := by
            have hForwarded := hFiles.forwarded
            simp only [Mail.forwarded_append, Mail.taken_append,
              List.append_nil, hForwarded, hOutbox,
              List.append_assoc]
            rfl
          answered := by simpa using hFiles.answered
          reports := hFiles.reports
          refusals := by
            have hRefusals := hFiles.refusals
            rw [hInbox, ← List.singleton_append] at hRefusals
            simp only [Mail.reported_append, List.append_nil,
              List.filter_append, hReaction.refusals_eq,
              List.append_assoc] at hRefusals ⊢
            exact hRefusals }

theorem deliver
    (stamp : Stamp)
    (hFiles : floor.Files mail) :
    (floor.deliver stamp).Files
      (mail ++ floor.mailOf (.deliver stamp)) := by
  unfold Floor.deliver mailOf
  cases hOutbox : floor.outbox with
  | nil => simpa using hFiles
  | cons envelope rest =>
      have hForwarded := hFiles.forwarded
      rw [hOutbox, List.cons_append] at hForwarded
      have hRequest : isRequest envelope = true := by
        apply hFiles.requests
        apply hFiles.asked.subset
        simp [hForwarded]
      have hReaction :=
        PaperVenue.reaction_handle stamp envelope hFiles.connected
      rcases hReaction.exists_answer hRequest with
        ⟨answer, hReports, hAnswers⟩
      have hKinds := hAnswers.isResponse
      dsimp only [followVenue]
      exact
        { connected := hReaction.connected.trans hFiles.connected
          requests := by simpa using hFiles.requests
          asked := by simpa using hFiles.asked
          forwarded := by
            simp only [Mail.forwarded_append, Mail.taken_append,
              List.append_nil, List.append_assoc, hForwarded]
            rfl
          answered := by
            rw [hReports, Mail.taken_append, Mail.reported_append,
              List.filter_append]
            simp only [List.filter_singleton, hKinds.1]
            exact
              List.rel_append hFiles.answered
                (.cons hAnswers .nil)
          reports := by
            rw [hReports, List.forall_mem_append]
            exact ⟨hFiles.reports, by simpa using hKinds.2⟩
          refusals := by
            simp only [hReports, Mail.reported_append,
              List.filter_append, ← hFiles.refusals,
              List.append_assoc] }

theorem report
    (stamp : Stamp)
    (fill : PendingFill)
    (hFiles : floor.Files mail) :
    (floor.report stamp fill).Files
      (mail ++ floor.mailOf (.report stamp fill)) := by
  unfold Floor.report mailOf
  by_cases hExecuted : fill ∈ floor.executed
  · simp only [if_pos hExecuted]
    exact
      { connected := hFiles.connected
        requests := by simpa using hFiles.requests
        asked := by simpa using hFiles.asked
        forwarded := by simpa [waiting] using hFiles.forwarded
        answered := by
          have hNone :
              isResponse
                  (Envelope.event stamp
                    (.orderEvent
                      ⟨fill.orderId, .filled fill.fill⟩)) =
                false :=
            rfl
          simpa [hNone] using hFiles.answered
        reports := by
          rw [List.forall_mem_append]
          refine ⟨hFiles.reports, ?_⟩
          simp [isRequest, Envelope.event, Envelope.make]
        refusals := by
          simp only [Mail.reported_append, List.filter_append,
            ← hFiles.refusals, List.append_assoc] }
  · simp only [if_neg hExecuted]
    simpa using hFiles

theorem execute
    (fill : PendingFill)
    (hFiles : floor.Files mail) :
    (floor.execute fill).Files mail := by
  unfold Floor.execute
  split
  · split
    · exact
        { connected := hFiles.connected
          requests := hFiles.requests
          asked := hFiles.asked
          forwarded := hFiles.forwarded
          answered := hFiles.answered
          reports := hFiles.reports
          refusals := hFiles.refusals }
    · exact
        { connected := hFiles.connected
          requests := hFiles.requests
          asked := hFiles.asked
          forwarded := hFiles.forwarded
          answered := hFiles.answered
          reports := hFiles.reports
          refusals := hFiles.refusals }
  · exact hFiles

theorem withEngine
    (engine : Engine)
    (hFiles : floor.Files mail) :
    ({ floor with engine := engine } : Floor).Files mail where
  connected := hFiles.connected
  requests := hFiles.requests
  asked := hFiles.asked
  forwarded := hFiles.forwarded
  answered := hFiles.answered
  reports := hFiles.reports
  refusals := hFiles.refusals

theorem silent
    {move : Move}
    (hMail : floor.mailOf move = {})
    (hNext : (floor.move move).Files mail) :
    (floor.move move).Files (mail ++ floor.mailOf move) := by
  rw [hMail, Mail.append_empty]
  exact hNext

/- Every move keeps the floor in agreement with what was sent. -/
theorem move
    (move : Move)
    (hFiles : floor.Files mail) :
    (floor.move move).Files (mail ++ floor.mailOf move) := by
  cases move with
  | submit header command => exact hFiles.enqueue rfl
  | cancel header cancel => exact hFiles.enqueue rfl
  | arrive => exact silent rfl hFiles.arrive
  | serve stamp => exact hFiles.serve stamp
  | deliver stamp => exact hFiles.deliver stamp
  | execute fill => exact silent rfl (hFiles.execute fill)
  | report stamp fill => exact hFiles.report stamp fill
  | start =>
      exact
        silent rfl
          (hFiles.turnWindow Window.start_fst_append_buffer)
  | stop => exact silent rfl (hFiles.turnWindow fun _ => rfl)
  | roll =>
      exact
        silent rfl
          (hFiles.turnWindow Window.roll_fst_append_buffer)
  | pause reason => exact silent rfl (hFiles.withEngine _)
  | resume => exact silent rfl (hFiles.withEngine _)

theorem play
    (moves : List Move)
    (hFiles : floor.Files mail) :
    (floor.play moves).Files (mail ++ floor.mailOfAll moves) := by
  induction moves generalizing floor mail with
  | nil => simpa [mailOfAll, Floor.play] using hFiles
  | cons move moves ih =>
      have hRest := ih (hFiles.move move)
      rw [Mail.append_assoc] at hRest
      exact hRest

/- Responses name the commands that they answer, one by one. -/
theorem correlationIds_eq
    (hFiles : floor.Files mail) :
    (mail.reported.filter isResponse).map Envelope.correlationId =
      mail.taken.map fun command => some command.id := by
  have hNamed :=
    hFiles.answered.imp
      (S := fun command answer =>
        some command.id = answer.correlationId)
      fun _ _ hAnswers => hAnswers.correlationId.symm
  rw [← List.forall₂_eq_eq_eq, List.forall₂_map_left_iff,
    List.forall₂_map_right_iff]
  exact hNamed.flip.imp fun _ _ hEq => hEq.symm

/- What the venue has taken are requests of clients. -/
theorem taken_sublist
    (hFiles : floor.Files mail) :
    mail.taken.Sublist mail.asked := by
  have hForwarded : mail.taken.Sublist mail.forwarded := by
    rw [hFiles.forwarded]
    exact List.sublist_append_left _ _
  exact
    (hForwarded.trans (List.sublist_append_left _ _)).trans
      hFiles.asked

end Files

------------------------------------------------------------
-- Answers Name Their Commands
------------------------------------------------------------

/-
  How the answers of the venue and the requests of clients
  belong together. What the engine passes on are requests,
  unchanged, each at most once; the venue takes them in that
  order, unchanged, and what it has not taken waits for it.
  For each command that it takes it gives one response, which
  names the command; it gives no other responses. Those that
  refuse a cancel are published under the same header or are
  on their way. So responses are told apart by what they
  answer, provided that requests are told apart.
-/
structure Correlates
    (floor : Floor)
    (mail : Mail) : Prop where
  passed_on : mail.forwarded.Sublist mail.asked
  delivered :
    mail.forwarded =
      mail.taken ++ (floor.outbox ++ floor.waiting)
  answered :
    List.Forall₂ Answers mail.taken
      (mail.reported.filter isResponse)
  published :
    (floor.published ++ (floor.inbox ++ floor.reports)).filter
        isRefusedResponse =
      mail.reported.filter isRefusedResponse
  distinct :
    (mail.asked.map Envelope.id).Nodup →
      ((mail.reported.filter isResponse).map
        Envelope.correlationId).Nodup

/-
  Whatever clients ask for, however long messages take,
  however often the window holds them back, and whenever
  timers fire, the answers of the venue belong to the
  requests of the clients.
-/
theorem correlates_play
    (gate : RiskGate)
    (settings : PaperSettings)
    (limit : Option { limit : Nat // 0 < limit })
    (moves : List Move) :
    ((Floor.new gate settings limit).play moves).Correlates
      ((Floor.new gate settings limit).mailOfAll moves) := by
  have hFiles := (Files.new gate settings limit).play moves
  rw [Mail.empty_append] at hFiles
  exact
    { passed_on :=
        (List.sublist_append_left _ _).trans hFiles.asked
      delivered := hFiles.forwarded
      answered := hFiles.answered
      published := hFiles.refusals
      distinct := by
        intro hDistinct
        have hTaken :=
          (hFiles.taken_sublist.map Envelope.id).nodup hDistinct
        rw [hFiles.correlationIds_eq]
        have hNamed := hTaken.map (Option.some_injective _)
        rw [List.map_map] at hNamed
        exact hNamed }

end Floor

end OrderDesk
