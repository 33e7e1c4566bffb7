import OrderDesk.Proofs.Desk.Floor

/-
  This file proves in general how what is on a floor depends
  on what clients ask for: if the gate makes sure of
  something about every order that it lets pass, then every
  fill at the venue, waiting or reported, comes of such an
  order.

  Key definitions include:
    * `Cargo`
    * `Cargo.IsClosed`
    * `TradingMessage.Meets`
    * `Floor.Carries`

  Key theorems include:
    * `Floor.Carries.move`
    * `Floor.Carries.play`
    * `Floor.carries_new`
-/

namespace OrderDesk

------------------------------------------------------------
-- Cargo
------------------------------------------------------------

/-
  What there may be on a floor. Clients ask for orders that
  are `asked`, and the orders that go to the venue are
  `passed`. Fills of the venue are `filled`, and the engine
  is told of fills that are `told`. All this may depend on
  the gate, when it is open, and on the price at which the
  venue fills orders that carry none.
-/
structure Cargo where
  gate : RiskGate
  reference : Decimal
  asked : SubmitOrder → Prop
  passed : SubmitOrder → Prop
  filled : Fill → Prop
  told : Fill → Prop

/-
  What may be asked for may go to the venue if the gate lets
  it pass, what goes there may be filled, and of what is
  filled the engine may be told.
-/
structure Cargo.IsClosed
    (cargo : Cargo) : Prop where
  passes :
    ∀ command,
      cargo.asked command →
        command.validate = .ok () →
          cargo.gate.check command = .ok () →
            cargo.passed command
  fills :
    ∀ command,
      cargo.passed command →
        cargo.filled
          ⟨command.quantity, command.price.getD cargo.reference⟩
  tells : ∀ fill, cargo.filled fill → cargo.told fill

/-
  A message asks for what may be asked for, or tells of a
  fill that may be told of, or does neither.
-/
def TradingMessage.Meets
    (asked : SubmitOrder → Prop)
    (told : Fill → Prop) :
    TradingMessage → Prop
| .submitOrder command => asked command
| .orderEvent event => ∀ fill ∈ event.occurrence.fill?, told fill
| _ => True

theorem TradingMessage.Meets.imp_told
    {asked : SubmitOrder → Prop}
    {told more : Fill → Prop}
    {message : TradingMessage}
    (hMeets : message.Meets asked told)
    (hMore : ∀ fill, told fill → more fill) :
    message.Meets asked more := by
  cases message with
  | orderEvent event =>
      intro fill hFill
      exact hMore fill (hMeets fill hFill)
  | _ => exact hMeets

/- Who passes a gate would also pass it if it were open. -/
theorem RiskGate.check_resume
    {gate : RiskGate}
    {command : SubmitOrder}
    (hCheck : gate.check command = .ok ()) :
    gate.resume.check command = .ok () := by
  have hOpen := (check_eq_ok_iff.mp hCheck).1
  have hSame : gate.resume = gate := by
    unfold resume
    rw [← hOpen]
  rw [hSame]
  exact hCheck

/-
  What the engine publishes of a fill, or hands on, it was
  told itself.
-/
theorem Engine.Reaction.meets_of_mem_events
    {stamp : Stamp}
    {engine : Engine}
    {envelope sent : Envelope TradingMessage}
    {step : EngineStep}
    {asked : SubmitOrder → Prop}
    {told : Fill → Prop}
    (hReaction : Reaction stamp engine envelope step)
    (hMeets : envelope.payload.Meets asked told)
    (hSent : sent ∈ step.events) :
    sent.payload.Meets asked told := by
  cases hReaction with
  | duplicate => cases hSent
  | cancelForwarded => cases hSent
  | reportUnknown => cases hSent
  | opened command =>
      cases List.mem_singleton.mp hSent
      intro fill hFill
      rw [engine.admission_fill? command] at hFill
      cases hFill
  | cancelRefused =>
      cases List.mem_singleton.mp hSent
      trivial
  | reportApplied event order next hPayload =>
      cases List.mem_singleton.mp hSent
      rw [hPayload] at hMeets
      exact hMeets
  | reportRefused =>
      cases List.mem_singleton.mp hSent
      trivial
  | cancelRejectionPassed rejection hPayload =>
      cases List.mem_singleton.mp hSent
      exact hMeets
  | transitionRejectionPassed rejection hPayload =>
      cases List.mem_singleton.mp hSent
      exact hMeets

------------------------------------------------------------
-- Floors And Their Cargo
------------------------------------------------------------

namespace Floor

/- All that is on a floor is what there may be. -/
structure Carries
    (cargo : Cargo)
    (floor : Floor) : Prop where
  gate : floor.engine.gate.resume = cargo.gate
  venue : floor.venue.settings.referencePrice = cargo.reference
  connected : floor.venue.connected = true
  inbox :
    ∀ envelope ∈ floor.inbox,
      envelope.payload.Meets cargo.asked cargo.told
  reports :
    ∀ envelope ∈ floor.reports,
      envelope.payload.Meets cargo.asked cargo.filled
  outbox :
    ∀ envelope ∈ floor.outbox ++ floor.waiting,
      envelope.payload.Meets cargo.passed fun _ => True
  pending : ∀ fill ∈ floor.pending, cargo.filled fill.fill
  executed : ∀ fill ∈ floor.executed, cargo.filled fill.fill

namespace Carries

variable {cargo : Cargo} {floor : Floor}

theorem enqueue
    {envelope : Envelope TradingMessage}
    (hCarries : floor.Carries cargo)
    (hMeets : envelope.payload.Meets cargo.asked cargo.told) :
    (floor.enqueue envelope).Carries cargo :=
  { hCarries with
    inbox := by
      intro other hOther
      rcases List.mem_append.mp hOther with hMem | hMem
      · exact hCarries.inbox other hMem
      · cases List.mem_singleton.mp hMem
        exact hMeets }

theorem arrive
    (hCarries : floor.Carries cargo)
    (hClosed : cargo.IsClosed) :
    floor.arrive.Carries cargo := by
  unfold Floor.arrive
  cases hReports : floor.reports with
  | nil => exact hCarries
  | cons envelope rest =>
      have hAll := hCarries.reports
      rw [hReports] at hAll
      have hRest :
          ({ floor with reports := rest } : Floor).Carries
            cargo :=
        { hCarries with
          reports := fun other hOther =>
            hAll other (List.mem_cons_of_mem _ hOther) }
      exact
        hRest.enqueue
          ((hAll envelope List.mem_cons_self).imp_told
            hClosed.tells)

theorem turnWindow
    {turn :
      Window (Envelope TradingMessage) →
        List (Envelope TradingMessage) ×
          Window (Envelope TradingMessage)}
    (hCarries : floor.Carries cargo)
    (hFifo :
      ∀ window,
        (turn window).1 ++ (turn window).2.buffer =
          window.buffer) :
    (floor.turnWindow turn).Carries cargo := by
  have hOutbox := outbox_waiting_turnWindow floor hFifo
  rcases turnWindow_eq floor turn with ⟨window, outbox, hTurn⟩
  rw [hTurn] at hOutbox ⊢
  exact
    { hCarries with
      outbox := by
        rw [hOutbox]
        exact hCarries.outbox }

/- What the engine sends to the venue may be sent. -/
theorem meets_of_mem_commands
    {stamp : Stamp}
    {envelope sent : Envelope TradingMessage}
    {step : EngineStep}
    (hCarries : floor.Carries cargo)
    (hClosed : cargo.IsClosed)
    (hReaction :
      Engine.Reaction stamp floor.engine envelope step)
    (hMeets : envelope.payload.Meets cargo.asked cargo.told)
    (hSent : sent ∈ step.commands) :
    sent.payload.Meets cargo.passed fun _ => True := by
  cases hPayload : sent.payload with
  | submitOrder command =>
      rcases hReaction.check_of_sent hSent hPayload with
        ⟨hTaken, hValid, hCheck⟩
      rw [hTaken] at hMeets
      have hOpen := RiskGate.check_resume hCheck
      rw [hCarries.gate] at hOpen
      exact hClosed.passes command hMeets hValid hOpen
  | orderEvent event => exact fun _ _ => trivial
  | _ => trivial

theorem serve
    (hCarries : floor.Carries cargo)
    (hClosed : cargo.IsClosed)
    (stamp : Stamp) :
    (floor.serve stamp).Carries cargo := by
  unfold Floor.serve
  cases hInbox : floor.inbox with
  | nil => exact hCarries
  | cons envelope rest =>
      rcases Engine.exists_reaction stamp floor.engine envelope
        with ⟨step, hHandle, hReaction⟩
      simp only [hHandle]
      have hAll := hCarries.inbox
      rw [hInbox] at hAll
      have hCommands :
          ∀ sent ∈ step.commands,
            sent.payload.Meets cargo.passed fun _ => True :=
        fun sent hSent =>
          hCarries.meets_of_mem_commands hClosed hReaction
            (hAll envelope List.mem_cons_self) hSent
      unfold followEngine
      have hOutbox :=
        outbox_waiting_foldl_command step.commands
          { floor with
            inbox := rest
            engine := step.engine
            published := floor.published ++ step.events }
      rcases foldl_command_eq step.commands
          { floor with
            inbox := rest
            engine := step.engine
            published := floor.published ++ step.events } with
        ⟨window, outbox, hEq⟩
      rw [hEq] at hOutbox ⊢
      exact
        { hCarries with
          gate := by
            rw [← hCarries.gate, ← hReaction.gate]
          inbox := fun other hOther =>
            hAll other (List.mem_cons_of_mem _ hOther)
          outbox := by
            rw [hOutbox]
            intro other hOther
            rcases List.mem_append.mp hOther with hMem | hMem
            · exact hCarries.outbox other hMem
            · exact hCommands other hMem }

/- The venue reports, and sets a timer for, what there may be. -/
theorem followVenue
    {step : VenueStep}
    (hCarries : floor.Carries cargo)
    (hSettings : step.venue.settings = floor.venue.settings)
    (hConnected : step.venue.connected = floor.venue.connected)
    (hReports :
      ∀ report ∈ step.reports,
        report.payload.Meets cargo.asked cargo.filled)
    (hPending : ∀ fill ∈ step.pending, cargo.filled fill.fill) :
    (floor.followVenue step).Carries cargo :=
  { hCarries with
    venue := (congrArg _ hSettings).trans hCarries.venue
    connected := hConnected.trans hCarries.connected
    reports := by
      intro report hReport
      rcases List.mem_append.mp hReport with hMem | hMem
      · exact hCarries.reports report hMem
      · exact hReports report hMem
    pending := by
      intro fill hFill
      rcases List.mem_append.mp hFill with hMem | hMem
      · exact hCarries.pending fill hMem
      · exact hPending fill (Option.mem_toList.mp hMem) }

theorem deliver
    (hCarries : floor.Carries cargo)
    (hClosed : cargo.IsClosed)
    (stamp : Stamp) :
    (floor.deliver stamp).Carries cargo := by
  unfold Floor.deliver
  cases hOutbox : floor.outbox with
  | nil => exact hCarries
  | cons envelope rest =>
      have hAll := hCarries.outbox
      rw [hOutbox, List.cons_append] at hAll
      have hRest :
          ({ floor with outbox := rest } : Floor).Carries
            cargo :=
        { hCarries with
          outbox := fun other hOther =>
            hAll other (List.mem_cons_of_mem _ hOther) }
      have hEnvelope := hAll envelope List.mem_cons_self
      have hReaction :=
        PaperVenue.reaction_handle stamp envelope
          hCarries.connected
      apply hRest.followVenue hReaction.settings
        hReaction.connected
      · intro report hReport
        rcases hReaction.payload_cases hReport with
          ⟨event, hPayload, hNone⟩ | ⟨rejection, hPayload⟩
        · rw [hPayload]
          intro fill hFill
          rw [hNone] at hFill
          cases hFill
        · rw [hPayload]
          trivial
      · intro fill hFill
        rcases hReaction.of_mem_pending hFill with
          ⟨command, hPayload, rfl⟩
        rw [hPayload] at hEnvelope
        unfold PaperVenue.fillOf
        rw [hCarries.venue]
        exact hClosed.fills command hEnvelope

theorem execute
    (hCarries : floor.Carries cargo)
    (fill : PendingFill) :
    (floor.execute fill).Carries cargo := by
  have hFewer :
      ∀ other ∈ floor.pending.erase fill,
        cargo.filled other.fill := fun other hOther =>
    hCarries.pending other (List.mem_of_mem_erase hOther)
  unfold Floor.execute
  split
  · rename_i hPending
    split
    · exact
        { hCarries with
          pending := hFewer
          executed := by
            intro other hOther
            rcases List.mem_cons.mp hOther with rfl | hMem
            · exact hCarries.pending other hPending
            · exact hCarries.executed other hMem }
    · exact { hCarries with pending := hFewer }
  · exact hCarries

theorem report
    (hCarries : floor.Carries cargo)
    (stamp : Stamp)
    (fill : PendingFill) :
    (floor.report stamp fill).Carries cargo := by
  unfold Floor.report
  split
  · rename_i hExecuted
    exact
      { hCarries with
        executed := fun other hOther =>
          hCarries.executed other (List.mem_of_mem_erase hOther)
        reports := by
          intro report hReport
          rcases List.mem_append.mp hReport with hMem | hMem
          · exact hCarries.reports report hMem
          · cases List.mem_singleton.mp hMem
            intro other hOther
            cases hOther
            exact hCarries.executed fill hExecuted }
  · exact hCarries

/-
  After a move there is on the floor only what there may be,
  as long as clients ask only for what may be asked for.
-/
theorem move
    {move : Move}
    (hCarries : floor.Carries cargo)
    (hClosed : cargo.IsClosed)
    (hMove : move.IsAllowed cargo.asked) :
    (floor.move move).Carries cargo := by
  cases move with
  | submit header command => exact hCarries.enqueue hMove
  | cancel header cancel => exact hCarries.enqueue trivial
  | arrive => exact hCarries.arrive hClosed
  | serve stamp => exact hCarries.serve hClosed stamp
  | deliver stamp => exact hCarries.deliver hClosed stamp
  | execute fill => exact hCarries.execute fill
  | report stamp fill => exact hCarries.report stamp fill
  | start =>
      exact hCarries.turnWindow Window.start_fst_append_buffer
  | stop => exact hCarries.turnWindow fun _ => rfl
  | roll =>
      exact hCarries.turnWindow Window.roll_fst_append_buffer
  | pause reason => exact { hCarries with gate := hCarries.gate }
  | resume => exact { hCarries with gate := hCarries.gate }

end Carries

------------------------------------------------------------
-- Publications
------------------------------------------------------------

/- Nothing is published by the moves that are not the engine's. -/
theorem published_move
    (floor : Floor)
    (move : Move)
    (hMove : ∀ stamp, move ≠ .serve stamp) :
    (floor.move move).published = floor.published := by
  have hTurn :
      ∀ turn, (floor.turnWindow turn).published =
        floor.published := by
    intro turn
    rcases turnWindow_eq floor turn with ⟨window, outbox, hTurn⟩
    rw [hTurn]
  cases move with
  | submit header command => rfl
  | cancel header cancel => rfl
  | arrive =>
      unfold Floor.move arrive
      dsimp only
      split <;> rfl
  | serve stamp => exact absurd rfl (hMove stamp)
  | deliver stamp =>
      unfold Floor.move deliver
      dsimp only
      split <;> rfl
  | execute fill =>
      unfold Floor.move execute
      dsimp only
      split
      · split <;> rfl
      · rfl
  | report stamp fill =>
      unfold Floor.move report
      dsimp only
      split <;> rfl
  | start => exact hTurn _
  | stop => exact hTurn _
  | roll => exact hTurn _
  | pause reason => rfl
  | resume => rfl

/- The engine publishes nothing but what there may be. -/
theorem Carries.meets_of_mem_published
    {cargo : Cargo}
    {floor : Floor}
    {move : Move}
    {envelope : Envelope TradingMessage}
    (hCarries : floor.Carries cargo)
    (hPublished : envelope ∈ (floor.move move).published) :
    envelope ∈ floor.published ∨
      envelope.payload.Meets cargo.asked cargo.told := by
  by_cases hServe : ∃ stamp, move = .serve stamp
  · rcases hServe with ⟨stamp, rfl⟩
    change envelope ∈ (floor.serve stamp).published at hPublished
    unfold Floor.serve at hPublished
    cases hInbox : floor.inbox with
    | nil =>
        simp only [hInbox] at hPublished
        exact Or.inl hPublished
    | cons taken rest =>
        rcases Engine.exists_reaction stamp floor.engine taken
          with ⟨step, hHandle, hReaction⟩
        have hTaken := hCarries.inbox taken (by simp [hInbox])
        simp only [hInbox, hHandle] at hPublished
        unfold followEngine at hPublished
        rcases foldl_command_eq step.commands
            { floor with
              inbox := rest
              engine := step.engine
              published := floor.published ++ step.events } with
          ⟨window, outbox, hEq⟩
        rw [hEq] at hPublished
        rcases List.mem_append.mp hPublished with hOld | hNew
        · exact Or.inl hOld
        · exact Or.inr (hReaction.meets_of_mem_events hTaken hNew)
  · rw [published_move floor move
      fun stamp hMove => hServe ⟨stamp, hMove⟩] at hPublished
    exact Or.inl hPublished

/-
  In the course of moves there is on the floor only what
  there may be, and nothing else is published.
-/
theorem Carries.play
    {cargo : Cargo}
    {floor : Floor}
    {moves : List Move}
    (hCarries : floor.Carries cargo)
    (hClosed : cargo.IsClosed)
    (hMoves : ∀ move ∈ moves, move.IsAllowed cargo.asked) :
    (floor.play moves).Carries cargo ∧
      ∀ envelope ∈ (floor.play moves).published,
        envelope ∈ floor.published ∨
          envelope.payload.Meets cargo.asked cargo.told := by
  induction moves generalizing floor with
  | nil => exact ⟨hCarries, fun _ hMem => Or.inl hMem⟩
  | cons move moves ih =>
      have hNext :=
        hCarries.move hClosed (hMoves move List.mem_cons_self)
      rcases ih hNext fun other hOther =>
          hMoves other (List.mem_cons_of_mem _ hOther) with
        ⟨hLast, hPublished⟩
      refine ⟨hLast, ?_⟩
      intro envelope hMem
      rcases hPublished envelope hMem with hBefore | hMeets
      · exact hCarries.meets_of_mem_published hBefore
      · exact Or.inr hMeets

------------------------------------------------------------
-- New Floors
------------------------------------------------------------

/- There is nothing on a floor on which nothing has happened. -/
theorem carries_new
    {cargo : Cargo}
    (gate : RiskGate)
    (settings : PaperSettings)
    (limit : Option { limit : Nat // 0 < limit })
    (hGate : gate.resume = cargo.gate)
    (hReference : settings.referencePrice = cargo.reference) :
    (Floor.new gate settings limit).Carries cargo where
  gate := hGate
  venue := hReference
  connected := rfl
  inbox := by simp [Floor.new]
  reports := by simp [Floor.new]
  outbox := by cases limit <;> simp [Floor.new, waiting, Window.new]
  pending := by simp [Floor.new]
  executed := by simp [Floor.new]

end Floor

end OrderDesk
