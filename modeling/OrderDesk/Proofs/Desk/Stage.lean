import OrderDesk.Proofs.Desk.Floor
import OrderDesk.Proofs.Engine.Fills

/-
  This file defines the stages that an order goes through
  between the engine and the venue, and proves that every
  move leads from one stage to another.

  The engine is always behind the venue: what it has
  published about an order, and what was reported to it
  since, make up the life of the order as the venue knows
  it.

  Key definitions include:
    * `Standing`
    * `Stage`

  Key theorems include:
    * `Standing.chain`
    * `Stage.exists_apply`
    * `Stage.move`
-/

namespace OrderDesk

------------------------------------------------------------
-- The Venue's Half
------------------------------------------------------------

/-
  The life of an order so far and where the order stands at
  the venue: it is on its way there; it rests, and its fill
  is pending; its fill is executed, but not reported; it is
  filled; or it was withdrawn.
-/
inductive Standing
    (id : OrderId)
    (command : SubmitOrder)
    (submitted : List SubmitOrder)
    (isResting : Bool)
    (pending executed : List PendingFill) :
    List OrderEvent → Prop where
  | sent
      (hSubmitted : submitted = [command])
      (hResting : isResting = false)
      (hPending : pending = [])
      (hExecuted : executed = []) :
      Standing id command submitted isResting pending executed
        [⟨id, .submitted⟩]
  | resting
      (venueOrderId : String)
      (fill : PendingFill)
      (hQuantity : fill.fill.quantity = command.quantity)
      (hSubmitted : submitted = [])
      (hResting : isResting = true)
      (hPending : pending = [fill])
      (hExecuted : executed = []) :
      Standing id command submitted isResting pending executed
        [⟨id, .submitted⟩, ⟨id, .accepted venueOrderId⟩]
  | executing
      (venueOrderId : String)
      (fill : PendingFill)
      (hQuantity : fill.fill.quantity = command.quantity)
      (hSubmitted : submitted = [])
      (hResting : isResting = false)
      (hPending : pending = [])
      (hExecuted : executed = [fill]) :
      Standing id command submitted isResting pending executed
        [⟨id, .submitted⟩, ⟨id, .accepted venueOrderId⟩]
  | filled
      (venueOrderId : String)
      (fill : Fill)
      (hQuantity : fill.quantity = command.quantity)
      (hSubmitted : submitted = [])
      (hResting : isResting = false)
      (hPending : pending = [])
      (hExecuted : executed = []) :
      Standing id command submitted isResting pending executed
        [⟨id, .submitted⟩, ⟨id, .accepted venueOrderId⟩,
          ⟨id, .filled fill⟩]
  | withdrawn
      (venueOrderId : String)
      (hSubmitted : submitted = [])
      (hResting : isResting = false)
      (hExecuted : executed = []) :
      Standing id command submitted isResting pending executed
        [⟨id, .submitted⟩, ⟨id, .accepted venueOrderId⟩,
          ⟨id, .cancelled⟩]

/- An event is legal in the state that another one leads to. -/
def OrderEvent.Leads
    (first second : OrderEvent) : Prop :=
  ∃ state, first.kind.target.next? second.kind = some state

/-
  An order that was replayed takes an event that is legal
  after the last one, if its fill is accountable.
-/
theorem Order.exists_apply_of_chain
    {start order : Order}
    {told rest : List OrderEvent}
    {event : OrderEvent}
    (hReplay : start.replay told = .ok order)
    (hTold : told ≠ [])
    (hChain : (told ++ event :: rest).IsChain OrderEvent.Leads)
    (hFits :
      ∀ fill,
        event.occurrence.fill? = some fill →
          order.fillTotals? fill ≠ none) :
    ∃ next, order.apply event = .ok next := by
  rcases List.eq_nil_or_concat' told with
    hNil | ⟨init, last, rfl⟩
  · exact absurd hNil hTold
  · rw [List.isChain_append] at hChain
    rcases hChain.2.2 last (by simp) event (by simp) with
      ⟨state, hNext⟩
    rw [← Order.state_of_replay hReplay] at hNext
    exact Order.exists_apply_eq_ok hNext hFits

/- In the life of an order each event is legal after the one before. -/
theorem Standing.chain
    {id : OrderId}
    {command : SubmitOrder}
    {submitted : List SubmitOrder}
    {isResting : Bool}
    {pending executed : List PendingFill}
    {life : List OrderEvent}
    (hStanding :
      Standing id command submitted isResting pending executed
        life) :
    life.IsChain OrderEvent.Leads := by
  cases hStanding with
  | sent => exact .singleton _
  | resting => exact .cons_cons ⟨_, rfl⟩ (.singleton _)
  | executing => exact .cons_cons ⟨_, rfl⟩ (.singleton _)
  | filled =>
      exact
        .cons_cons ⟨_, rfl⟩ (.cons_cons ⟨_, rfl⟩ (.singleton _))
  | withdrawn =>
      exact
        .cons_cons ⟨_, rfl⟩ (.cons_cons ⟨_, rfl⟩ (.singleton _))

------------------------------------------------------------
-- Both Halves
------------------------------------------------------------

/- Nothing about the order is on its way or at the venue. -/
structure Sight.IsQuiet
    (sight : Sight) : Prop where
  submitted : sight.submitted = []
  reported : sight.reported = []
  isResting : sight.isResting = false
  pending : sight.pending = []
  executed : sight.executed = []

/-
  Where an order stands. Nobody has asked for it yet; or the
  engine has turned it down; or it was passed on, and then
  what was told about it and what is reported of it make up
  its life, as far as that has gone at the venue.
-/
inductive Stage
    (id : OrderId)
    (sight : Sight) : Prop where
  | unknown
      (hOrder : sight.order = none)
      (hTold : sight.told = [])
      (hQuiet : sight.IsQuiet)
  | refused
      (command : SubmitOrder)
      (occurrence : Occurrence)
      (order : Order)
      (reason : String)
      (hOrder : sight.order = some order)
      (hRefused :
        occurrence = .invalid reason ∨
          occurrence = .denied reason)
      (hTold : sight.told = [⟨id, occurrence⟩])
      (hReplay :
        (Order.new command).replay sight.told = .ok order)
      (hQuiet : sight.IsQuiet)
  | placed
      (command : SubmitOrder)
      (order : Order)
      (life : List OrderEvent)
      (hOrder : sight.order = some order)
      (hTold : sight.told ≠ [])
      (hReplay :
        (Order.new command).replay sight.told = .ok order)
      (hLife : sight.told ++ sight.reported = life)
      (hStanding :
        Standing id command sight.submitted sight.isResting
          sight.pending sight.executed life)

variable {id : OrderId} {sight next : Sight}

/- What is reported of an order can be applied to it. -/
theorem Stage.exists_apply
    {event : OrderEvent}
    {rest : List OrderEvent}
    (hStage : Stage id sight)
    (hReported : sight.reported = event :: rest)
    (hFits :
      ∀ order,
        sight.order = some order →
          ∀ fill,
            event.occurrence.fill? = some fill →
              order.fillTotals? fill ≠ none) :
    ∃ order next,
      sight.order = some order ∧ order.apply event = .ok next := by
  cases hStage with
  | unknown _ _ hQuiet =>
      cases hQuiet.reported.symm.trans hReported
  | refused _ _ _ _ _ _ _ _ hQuiet =>
      cases hQuiet.reported.symm.trans hReported
  | placed command order life hOrder hTold hReplay hLife
      hStanding =>
      have hChain := hStanding.chain
      rw [← hLife, hReported] at hChain
      rcases Order.exists_apply_of_chain hReplay hTold hChain
          (hFits order hOrder) with
        ⟨next, hApply⟩
      exact ⟨order, next, hOrder, hApply⟩

------------------------------------------------------------
-- Moves
------------------------------------------------------------

theorem Stage.taken
    {event : OrderEvent}
    {rest : List OrderEvent}
    {order changed : Order}
    (hStage : Stage id sight)
    (hReported : sight.reported = event :: rest)
    (hOrder : sight.order = some order)
    (hApply : order.apply event = .ok changed) :
    Stage id
      { sight with
        order := some changed
        reported := rest
        told := sight.told ++ [event] } := by
  cases hStage with
  | unknown _ _ hQuiet =>
      cases hQuiet.reported.symm.trans hReported
  | refused _ _ _ _ _ _ _ _ hQuiet =>
      cases hQuiet.reported.symm.trans hReported
  | placed command other life hOther hTold hReplay hLife
      hStanding =>
      cases hOther.symm.trans hOrder
      refine
        .placed command changed life rfl (by simp)
          (Order.replay_append_of_apply hReplay hApply) ?_
          hStanding
      rw [← hLife, hReported]
      simp

theorem Stage.accepted
    {command : SubmitOrder}
    {rest : List SubmitOrder}
    (venueOrderId : String)
    (price : Decimal)
    (hStage : Stage id sight)
    (hSubmitted : sight.submitted = command :: rest) :
    Stage id
      { sight with
        submitted := rest
        reported :=
          sight.reported ++ [⟨id, .accepted venueOrderId⟩]
        isResting := true
        pending :=
          sight.pending ++
            [⟨id, ⟨command.quantity, price⟩⟩] } := by
  cases hStage with
  | unknown _ _ hQuiet =>
      cases hQuiet.submitted.symm.trans hSubmitted
  | refused _ _ _ _ _ _ _ _ hQuiet =>
      cases hQuiet.submitted.symm.trans hSubmitted
  | placed first order life hOrder hTold hReplay hLife
      hStanding =>
      cases hStanding with
      | sent hSent hResting hPending hExecuted =>
          cases hSent.symm.trans hSubmitted
          refine
            .placed command order _ hOrder hTold hReplay rfl ?_
          dsimp only
          rw [← List.append_assoc, hLife, hPending]
          exact
            .resting venueOrderId _ rfl rfl rfl rfl hExecuted
      | resting _ _ _ hNone =>
          cases hNone.symm.trans hSubmitted
      | executing _ _ _ hNone =>
          cases hNone.symm.trans hSubmitted
      | filled _ _ _ hNone =>
          cases hNone.symm.trans hSubmitted
      | withdrawn _ hNone =>
          cases hNone.symm.trans hSubmitted

/-
  An order that rests at the venue was passed on and
  accepted, and its fill is pending.
-/
theorem Stage.of_isResting
    (hStage : Stage id sight)
    (hResting : sight.isResting = true) :
    ∃ command order venueOrderId fill,
      sight.order = some order ∧
        sight.told ≠ [] ∧
          (Order.new command).replay sight.told = .ok order ∧
            sight.told ++ sight.reported =
                [⟨id, .submitted⟩,
                  ⟨id, .accepted venueOrderId⟩] ∧
              fill.fill.quantity = command.quantity ∧
                sight.submitted = [] ∧
                  sight.pending = [fill] ∧
                    sight.executed = [] := by
  cases hStage with
  | unknown _ _ hQuiet =>
      cases hQuiet.isResting.symm.trans hResting
  | refused _ _ _ _ _ _ _ _ hQuiet =>
      cases hQuiet.isResting.symm.trans hResting
  | placed command order life hOrder hTold hReplay hLife
      hStanding =>
      cases hStanding with
      | resting venueOrderId fill hQuantity hSubmitted _ hPending
          hExecuted =>
          exact
            ⟨command, order, venueOrderId, fill, hOrder, hTold,
              hReplay, hLife, hQuantity, hSubmitted, hPending,
              hExecuted⟩
      | sent _ hGone => cases hGone.symm.trans hResting
      | executing _ _ _ _ hGone =>
          cases hGone.symm.trans hResting
      | filled _ _ _ _ hGone => cases hGone.symm.trans hResting
      | withdrawn _ _ hGone => cases hGone.symm.trans hResting

theorem Stage.cancelled
    (hStage : Stage id sight)
    (hResting : sight.isResting = true) :
    Stage id
      { sight with
        reported := sight.reported ++ [⟨id, .cancelled⟩]
        isResting := false } := by
  rcases hStage.of_isResting hResting with
    ⟨command, order, venueOrderId, fill, hOrder, hTold, hReplay,
      hLife, _, hSubmitted, _, hExecuted⟩
  refine .placed command order _ hOrder hTold hReplay rfl ?_
  dsimp only
  rw [← List.append_assoc, hLife]
  exact .withdrawn venueOrderId hSubmitted rfl hExecuted

theorem Stage.executed
    {fill : PendingFill}
    (hStage : Stage id sight)
    (hPending : fill ∈ sight.pending)
    (hResting : sight.isResting = true) :
    Stage id
      { sight with
        isResting := false
        pending := sight.pending.erase fill
        executed := fill :: sight.executed } := by
  rcases hStage.of_isResting hResting with
    ⟨command, order, venueOrderId, own, hOrder, hTold, hReplay,
      hLife, hQuantity, hSubmitted, hOwn, hExecuted⟩
  rw [hOwn] at hPending
  cases List.mem_singleton.mp hPending
  refine .placed command order _ hOrder hTold hReplay hLife ?_
  dsimp only
  rw [hOwn, hExecuted]
  exact
    .executing venueOrderId fill hQuantity hSubmitted rfl
      (by simp) rfl

theorem Stage.lapsed
    {fill : PendingFill}
    (hStage : Stage id sight)
    (hPending : fill ∈ sight.pending)
    (hGone : sight.isResting = false) :
    Stage id
      { sight with pending := sight.pending.erase fill } := by
  have hSome : sight.pending ≠ [] := List.ne_nil_of_mem hPending
  cases hStage with
  | unknown _ _ hQuiet => exact absurd hQuiet.pending hSome
  | refused _ _ _ _ _ _ _ _ hQuiet =>
      exact absurd hQuiet.pending hSome
  | placed command order life hOrder hTold hReplay hLife
      hStanding =>
      cases hStanding with
      | sent _ _ hNone => exact absurd hNone hSome
      | resting _ _ _ _ hResting =>
          cases hResting.symm.trans hGone
      | executing _ _ _ _ _ hNone => exact absurd hNone hSome
      | filled _ _ _ _ _ hNone => exact absurd hNone hSome
      | withdrawn venueOrderId hSubmitted hResting hExecuted =>
          exact
            .placed command order _ hOrder hTold hReplay hLife
              (.withdrawn venueOrderId hSubmitted hResting
                hExecuted)

theorem Stage.filled
    {fill : PendingFill}
    (hStage : Stage id sight)
    (hFill : fill ∈ sight.executed) :
    Stage id
      { sight with
        reported := sight.reported ++ [⟨id, .filled fill.fill⟩]
        executed := sight.executed.erase fill } := by
  have hSome : sight.executed ≠ [] := List.ne_nil_of_mem hFill
  cases hStage with
  | unknown _ _ hQuiet => exact absurd hQuiet.executed hSome
  | refused _ _ _ _ _ _ _ _ hQuiet =>
      exact absurd hQuiet.executed hSome
  | placed command order life hOrder hTold hReplay hLife
      hStanding =>
      cases hStanding with
      | sent _ _ _ hNone => exact absurd hNone hSome
      | resting _ _ _ _ _ _ hNone => exact absurd hNone hSome
      | executing venueOrderId own hQuantity hSubmitted hResting
          hPending hExecuted =>
          rw [hExecuted] at hFill
          cases List.mem_singleton.mp hFill
          refine
            .placed command order _ hOrder hTold hReplay rfl ?_
          dsimp only
          rw [← List.append_assoc, hLife]
          exact
            .filled venueOrderId fill.fill hQuantity hSubmitted
              hResting hPending (by simp [hExecuted])
      | filled _ _ _ _ _ _ hNone => exact absurd hNone hSome
      | withdrawn _ _ _ hNone => exact absurd hNone hSome

/- Whatever happens to an order leads to one of its stages. -/
theorem Stage.move
    (hStage : Stage id sight)
    (hMove : SightMove id sight next) :
    Stage id next := by
  cases hMove with
  | idle => exact hStage
  | refused command occurrence order reason hNew hRefused
      hApply =>
      cases hStage with
      | unknown hOrder hTold hQuiet =>
          refine
            .refused command occurrence order reason rfl hRefused
              (by simp [hTold]) ?_ ⟨hQuiet.submitted,
                hQuiet.reported, hQuiet.isResting, hQuiet.pending,
                hQuiet.executed⟩
          dsimp only
          rw [hTold]
          exact
            Order.replay_append_of_apply (Order.replay_nil _)
              hApply
      | refused _ _ _ _ hOrder => cases hNew.symm.trans hOrder
      | placed _ _ _ hOrder => cases hNew.symm.trans hOrder
  | submitted command order hNew hApply =>
      cases hStage with
      | unknown hOrder hTold hQuiet =>
          refine .placed command order _ rfl (by simp) ?_ rfl ?_
          · dsimp only
            rw [hTold]
            exact
              Order.replay_append_of_apply (Order.replay_nil _)
                hApply
          · dsimp only
            rw [hTold, hQuiet.reported, hQuiet.submitted]
            exact
              .sent rfl hQuiet.isResting hQuiet.pending
                hQuiet.executed
      | refused _ _ _ _ hOrder => cases hNew.symm.trans hOrder
      | placed _ _ _ hOrder => cases hNew.symm.trans hOrder
  | taken event rest order changed hReported hOrder hApply =>
      exact hStage.taken hReported hOrder hApply
  | missed event rest hReported hMissed =>
      rcases hStage.exists_apply hReported fun order hOrder =>
          (hMissed order hOrder).2 with
        ⟨order, changed, hOrder, hApply⟩
      rcases (hMissed order hOrder).1 with ⟨e, hRefused⟩
      cases hApply.symm.trans hRefused
  | accepted command rest venueOrderId price hSubmitted =>
      exact hStage.accepted venueOrderId price hSubmitted
  | cancelled hResting => exact hStage.cancelled hResting
  | lapsed fill hPending hGone => exact hStage.lapsed hPending hGone
  | executed fill hPending hResting =>
      exact hStage.executed hPending hResting
  | filled fill hExecuted => exact hStage.filled hExecuted

end OrderDesk
