import OrderDesk.Proofs.Desk.Agreement
import OrderDesk.Proofs.Desk.Tally

/-
  This file proves what becomes of every order at a desk
  that is left to settle. An order that the venue has
  accepted is cancelled if a cancel of it comes before its
  fill, and filled otherwise.

  Key definitions include:
    * `OrderEnding`
    * `IsCancelledBefore`
    * `Order.IsFilledBy`
    * `Desk.Concludes`

  Key theorems include:
    * `OrderPhase.ending`
    * `Desk.concludes_live`
-/

namespace OrderDesk

/- The venue has accepted an order, under a name of its own. -/
def Order.WasAccepted
    (order : Order)
    (id : OrderId) : Prop :=
  ∃ name, ⟨id, .accepted name⟩ ∈ order.history

/- An order is filled in full, and this is the fill that did it. -/
structure Order.IsFilledBy
    (order : Order)
    (id : OrderId)
    (fill : Fill) : Prop where
  state_eq : order.state = .filled
  filled_eq : order.filled = fill.quantity
  told : ⟨id, .filled fill⟩ ∈ order.history

/- The venue took a cancel of an order before some time. -/
def IsCancelledBefore
    (takings : List (Nat × Envelope TradingMessage))
    (id : OrderId)
    (deadline : Nat) : Prop :=
  ∃ taking ∈ takings,
    isCancelOf id taking.2 = true ∧ taking.1 < deadline

------------------------------------------------------------
-- One Order
------------------------------------------------------------

/- Nothing about the order is on its way, and no fill of it waits. -/
structure Docket.IsDone
    (docket : Docket) : Prop where
  line : docket.line = []
  reported : docket.reported = []
  timers : docket.timers = []
  due : docket.due = []

/-
  What became of an order. The engine turned it down; or it
  was cancelled no later than its fill was due; or it was
  filled, and no cancel of it came earlier.
-/
inductive OrderEnding
    (settings : PaperSettings)
    (id : OrderId)
    (taken : List (Nat × Envelope TradingMessage))
    (order : Order) : Prop where
  | refused
      (hState : order.state = .invalid ∨ order.state = .denied)
      (hTaken : taken = [])
  | cancelled
      (command : SubmitOrder)
      (start : Nat)
      (cancels : List (Nat × Envelope TradingMessage))
      (hTook : Took id command [] taken start cancels)
      (hAccepted : order.WasAccepted id)
      (hState : order.state = .cancelled)
      (hEarly :
        ∃ taking ∈ cancels,
          taking.1 ≤ start + settings.fillLatencyMs)
  | filled
      (command : SubmitOrder)
      (start : Nat)
      (cancels : List (Nat × Envelope TradingMessage))
      (hTook : Took id command [] taken start cancels)
      (hAccepted : order.WasAccepted id)
      (hFilled : order.IsFilledBy id (settings.fillOf command))
      (hLate :
        ∀ taking ∈ cancels,
          start + settings.fillLatencyMs ≤ taking.1)

section

variable {settings : PaperSettings} {id : OrderId}
variable {command : SubmitOrder} {docket : Docket}
variable {order : Order} {start : Nat}
variable {taken cancels : List (Nat × Envelope TradingMessage)}

/- Once all is reported, an order went through its life. -/
theorem Lives.replay_life
    {life : List OrderEvent}
    (hLives : Lives docket.order docket.reported command order life)
    (hDone : docket.IsDone) :
    order.history = life ∧
      (Order.new command).replay life = .ok order := by
  have hLife := hLives.life_eq
  rw [hDone.reported, List.append_nil] at hLife
  exact ⟨hLife, hLife ▸ hLives.replay⟩

theorem Awaits.not_isDone
    {deadline : Nat}
    {fill : Fill}
    (hAwaits :
      Awaits docket.now docket.timers docket.due deadline fill) :
    ¬docket.IsDone := by
  intro hDone
  cases hAwaits with
  | waits hTimers => cases hTimers.symm.trans hDone.timers
  | rings _ hDue => cases hDue.symm.trans hDone.due

/- Nothing rests of an order that is done. -/
theorem OrderPhase.isResting_of_isDone
    (hPhase : OrderPhase settings id docket)
    (hDone : docket.IsDone) :
    docket.isResting = false := by
  rw [← Bool.not_eq_true]
  intro hResting
  rcases hPhase.of_isResting hResting with
    ⟨_, _, _, _, _, _, hAwaits⟩
  exact hAwaits.not_isDone hDone

/- The engine knows every order that the venue has taken. -/
theorem OrderPhase.exists_order
    {taking : Nat × Envelope TradingMessage}
    (hPhase : OrderPhase settings id docket)
    (hTaking : taking ∈ docket.taken) :
    ∃ order, docket.order = some order := by
  cases hPhase with
  | unknown _ hQuiet =>
      rw [hQuiet.taken] at hTaking
      cases hTaking
  | refused _ _ order _ hOrder => exact ⟨order, hOrder⟩
  | placed _ order _ hLives => exact ⟨order, hLives.found_eq⟩

/- Nothing waits for an order only when it has come to an end. -/
theorem OrderPhase.ending
    (hPhase : OrderPhase settings id docket)
    (hDone : docket.IsDone)
    (hOrder : docket.order = some order) :
    OrderEnding settings id docket.taken order := by
  cases hPhase with
  | unknown hNone => cases hNone.symm.trans hOrder
  | refused command occurrence other reason hFound hRefused hApply
      hQuiet =>
      cases hFound.symm.trans hOrder
      refine .refused ?_ hQuiet.taken
      have hState := Order.state_of_apply hApply
      rcases hRefused with rfl | rfl
      · exact .inl hState
      · exact .inr hState
  | placed command other life hLives hFate =>
      cases hLives.found_eq.symm.trans hOrder
      rcases hLives.replay_life hDone with ⟨hHistory, hReplay⟩
      cases hFate with
      | sent envelope cancels hLine =>
          cases hLine.symm.trans hDone.line
      | waiting venueOrderId start hTook hResting hAwaits =>
          exact absurd hDone hAwaits.not_isDone
      | cancelled venueOrderId start cancels hTook hResting
          hEarly =>
          rw [hDone.line] at hTook
          have hLast :
              (Order.new command).replay
                  ([⟨id, .submitted⟩, ⟨id, .accepted venueOrderId⟩] ++
                    [⟨id, .cancelled⟩]) =
                .ok order :=
            hReplay
          exact
            .cancelled command start cancels hTook
              ⟨venueOrderId, by simp [hHistory]⟩
              (Order.state_of_replay hLast) hEarly
      | filled venueOrderId start cancels hTook hResting hLate
          hNow =>
          rw [hDone.line] at hTook
          have hLast :
              (Order.new command).replay
                  ([⟨id, .submitted⟩, ⟨id, .accepted venueOrderId⟩] ++
                    [⟨id, .filled (settings.fillOf command)⟩]) =
                .ok order :=
            hReplay
          exact
            .filled command start cancels hTook
              ⟨venueOrderId, by simp [hHistory]⟩
              ⟨Order.state_of_replay hLast,
                Stage.filled_of_replay hReplay,
                by simp [hHistory]⟩
              hLate

/- What the venue took first for an order is its submission. -/
theorem Took.of_submission
    {first : SubmitOrder}
    {line : List (Envelope TradingMessage)}
    {taking : Nat × Envelope TradingMessage}
    (hTook : Took id first line taken start cancels)
    (hTaking : taking ∈ taken)
    (hCommand : submissionOf? id taking.2 = some command) :
    taking.1 = start ∧ command = first := by
  rcases hTook.taken_eq with ⟨envelope, hFirst, hTaken⟩
  rw [hTaken] at hTaking
  rcases List.mem_cons.mp hTaking with rfl | hCancel
  · exact ⟨rfl, Option.some.inj (hCommand.symm.trans hFirst)⟩
  · have hPayload := (payload_of_submissionOf? hCommand).1
    have hIsCancel := hTook.cancels taking hCancel
    simp [isCancelOf, hPayload] at hIsCancel

theorem Took.mem_cancels_iff
    {line : List (Envelope TradingMessage)}
    {taking : Nat × Envelope TradingMessage}
    (hTook : Took id command line taken start cancels) :
    taking ∈ cancels ↔
      taking ∈ taken ∧ isCancelOf id taking.2 = true := by
  rcases hTook.taken_eq with ⟨envelope, hFirst, hTaken⟩
  rw [hTaken]
  constructor
  · intro hCancel
    exact
      ⟨List.mem_cons_of_mem _ hCancel,
        hTook.cancels taking hCancel⟩
  · rintro ⟨hTaking, hIsCancel⟩
    rcases List.mem_cons.mp hTaking with rfl | hCancel
    · have hPayload := (payload_of_submissionOf? hFirst).1
      simp [isCancelOf, hPayload] at hIsCancel
    · exact hCancel

/- An order has come to an end in one of four states. -/
theorem OrderEnding.state_cases
    (hEnding : OrderEnding settings id taken order) :
    order.state = .invalid ∨ order.state = .denied ∨
      order.state = .filled ∨ order.state = .cancelled := by
  cases hEnding with
  | refused hState => exact hState.imp_right .inl
  | cancelled command start cancels hTook hAccepted hState =>
      exact .inr (.inr (.inr hState))
  | filled command start cancels hTook hAccepted hFilled =>
      exact .inr (.inr (.inl hFilled.state_eq))

/-
  An order that the venue took at some time, and no cancel of
  it when its fill was due, is cancelled if a cancel of it
  came earlier, and filled otherwise.
-/
theorem OrderEnding.fate
    {taking : Nat × Envelope TradingMessage}
    (hEnding : OrderEnding settings id taken order)
    (hTaking : taking ∈ taken)
    (hCommand : submissionOf? id taking.2 = some command)
    (hNoTie :
      ∀ other ∈ taken,
        isCancelOf id other.2 = true →
          other.1 ≠ taking.1 + settings.fillLatencyMs) :
    order.WasAccepted id ∧
      (order.state = .cancelled ↔
          IsCancelledBefore taken id
            (taking.1 + settings.fillLatencyMs)) ∧
        (order.state ≠ .cancelled →
          order.IsFilledBy id (settings.fillOf command)) := by
  cases hEnding with
  | refused hState hTaken =>
      rw [hTaken] at hTaking
      cases hTaking
  | cancelled first start cancels hTook hAccepted hState hEarly =>
      rcases hTook.of_submission hTaking hCommand with ⟨rfl, rfl⟩
      rcases hEarly with ⟨other, hOther, hTime⟩
      have hMem := hTook.mem_cancels_iff.mp hOther
      have hBefore :=
        Nat.lt_of_le_of_ne hTime (hNoTie other hMem.1 hMem.2)
      exact
        ⟨hAccepted,
          iff_of_true hState ⟨other, hMem.1, hMem.2, hBefore⟩,
          fun hNot => absurd hState hNot⟩
  | filled first start cancels hTook hAccepted hFilled hLate =>
      rcases hTook.of_submission hTaking hCommand with ⟨rfl, rfl⟩
      have hState : order.state ≠ .cancelled := by
        rw [hFilled.state_eq]
        exact OrderState.noConfusion
      refine
        ⟨hAccepted, iff_of_false hState ?_, fun _ => hFilled⟩
      rintro ⟨other, hOther, hCancel, hBefore⟩
      exact
        Nat.not_lt_of_ge
          (hLate other (hTook.mem_cancels_iff.mpr ⟨hOther, hCancel⟩))
          hBefore

end

------------------------------------------------------------
-- The Desk
------------------------------------------------------------

namespace Desk

/-
  How things stand at a desk that has settled, after the
  venue has taken `takings`. Every order that the engine
  knows has come to an end; an order that the venue has
  taken was accepted, and it is cancelled if a cancel of it
  came before its fill was due, and filled otherwise, unless
  a cancel came at that very time; nothing rests at the
  venue; and the venue has accepted as many orders as were
  submitted.
-/
structure Concludes
    (settings : PaperSettings)
    (takings : List (Nat × Envelope TradingMessage))
    (desk : Desk) : Prop where
  ended :
    ∀ order ∈ desk.engine.blotter.orders,
      order.state = .invalid ∨ order.state = .denied ∨
        order.state = .filled ∨ order.state = .cancelled
  fate :
    ∀ taking ∈ takings,
      ∀ command,
        taking.2.payload = .submitOrder command →
          (∀ other ∈ takings,
              isCancelOf command.orderId other.2 = true →
                other.1 ≠ taking.1 + settings.fillLatencyMs) →
            ∃ order,
              desk.engine.blotter.find? command.orderId =
                  some order ∧
                order.WasAccepted command.orderId ∧
                  (order.state = .cancelled ↔
                      IsCancelledBefore takings command.orderId
                        (taking.1 + settings.fillLatencyMs)) ∧
                    (order.state ≠ .cancelled →
                      order.IsFilledBy command.orderId
                        (settings.fillOf command))
  resting : desk.venue.resting = []
  accepted :
    desk.venue.accepted =
      desk.engine.blotter.orders.countP Order.wasSubmitted

variable {desk : Desk} {settings : PaperSettings}
variable {takings : List (Nat × Envelope TradingMessage)}

/- Nothing waits for any order at a desk that has settled. -/
theorem IsSettled.isDone
    (hSettled : desk.IsSettled)
    (id : OrderId) :
    (desk.docket [] takings id).IsDone where
  line := by
    have hOutbox : desk.asFloor.outbox = [] := hSettled.toVenue
    unfold docket
    rw [hOutbox, hSettled.waiting]
    rfl
  reported := by
    unfold docket
    rw [hSettled.toEngine]
    rfl
  timers := by
    have hFills := map_snd_fillTimers desk.timers.pending id
    rw [hSettled.fills, List.filterMap_nil,
      List.map_eq_nil_iff] at hFills
    exact hFills
  due := rfl

theorem mem_taken_iff
    {taking : Nat × Envelope TradingMessage}
    (desk : Desk)
    (id : OrderId) :
    taking ∈ (desk.docket [] takings id).taken ↔
      taking ∈ takings ∧ isCommandFor id taking.2 = true :=
  List.mem_filter

/- A desk whose books are in order concludes once it has settled. -/
theorem Tallies.concludes
    (hTallies : desk.Tallies settings [] takings)
    (hSettled : desk.IsSettled) :
    desk.Concludes settings takings := by
  have hEnding :
      ∀ {id order},
        desk.engine.blotter.find? id = some order →
          OrderEnding settings id
            (desk.docket [] takings id).taken order :=
    fun {id} {_} hOrder =>
      (hTallies.phase id).ending (hSettled.isDone id) hOrder
  constructor
  · intro order hOrder
    rcases List.mem_map.mp hOrder with ⟨⟨id, _⟩, hEntry, rfl⟩
    have hFound :=
      Blotter.lookup_of_mem hTallies.indexed hEntry
    exact (hEnding hFound).state_cases
  · intro taking hTaking command hPayload hNoTie
    have hCommand :
        submissionOf? command.orderId taking.2 = some command := by
      simp [submissionOf?, hPayload]
    have hTaken :=
      (desk.mem_taken_iff command.orderId).mpr
        ⟨hTaking, by simp [isCommandFor, hCommand]⟩
    rcases (hTallies.phase command.orderId).exists_order hTaken with
      ⟨order, hOrder⟩
    have hFate :=
      (hEnding hOrder).fate hTaken hCommand
        fun other hOther hCancel =>
          hNoTie other ((desk.mem_taken_iff _).mp hOther).1 hCancel
    refine ⟨order, hOrder, hFate.1, ?_, hFate.2.2⟩
    rw [hFate.2.1]
    constructor
    · rintro ⟨other, hOther, hRest⟩
      exact ⟨other, ((desk.mem_taken_iff _).mp hOther).1, hRest⟩
    · rintro ⟨other, hOther, hCancel, hTime⟩
      exact
        ⟨other,
          (desk.mem_taken_iff _).mpr
            ⟨hOther, by simp [isCommandFor, hCancel]⟩,
          hCancel, hTime⟩
  · rw [List.eq_nil_iff_forall_not_mem]
    intro id hMem
    have hGone :=
      (hTallies.phase id).isResting_of_isDone (hSettled.isDone id)
    change decide (id ∈ desk.venue.resting) = false at hGone
    exact of_decide_eq_false hGone hMem
  · have hOutbox : desk.asFloor.outbox = [] := hSettled.toVenue
    have hSubmitted := hTallies.submitted
    rw [hOutbox, hSettled.waiting] at hSubmitted
    exact hSubmitted.symm

/-
  Whatever clients ask for and however long messages take, a
  desk that is left to settle comes to such an end, provided
  that orders can account for the fills that are reported.
-/
theorem concludes_live
    {throttler : Option (Throttler (Envelope TradingMessage))}
    (gate : RiskGate)
    (settings : PaperSettings)
    (stamps : Stamps)
    (beats : List Beat)
    (hFresh :
      ∀ t ∈ throttler,
        ∃ name intervalMs limit,
          Throttler.new name intervalMs limit = .ok t)
    (hBookable :
      (Desk.new gate settings throttler stamps).AllBookable beats)
    (hSettled :
      ((Desk.new gate settings throttler stamps).live
        beats).IsSettled) :
    ((Desk.new gate settings throttler stamps).live
        beats).Concludes settings
      ((Desk.new gate settings throttler stamps).takings beats) :=
  ((tallies_new gate settings stamps hFresh).live
    hBookable).concludes hSettled

/- One message may pass in each four tenths of a second. -/
def narrowThrottler : Throttler (Envelope TradingMessage) where
  name := throttlerName
  intervalMs := 400
  window := Window.new 1 Nat.one_pos
  timer := none
  intervalMs_pos := by decide

/- The same two units again, as another order. -/
def twoMore : SubmitOrder :=
  { EngineRun.twoUnits with orderId := OrderId.ofNat 2 }

/-
  Two orders, of which the second has to wait, and two
  cancels of it, of which one comes before its fill and one
  comes too late.
-/
def overtaken : List Beat :=
  [.start,
    .ask (.submit Floor.fixedHeader EngineRun.twoUnits),
    .ask (.submit Floor.fixedHeader twoMore),
    .serve, .serve, .deliver, .wait 400, .fire,
    .deliver, .serve, .serve,
    .ask (.cancel Floor.fixedHeader ⟨twoMore.orderId⟩),
    .ask (.cancel Floor.fixedHeader ⟨twoMore.orderId⟩),
    .serve, .serve, .wait 1000, .fire, .deliver, .serve,
    .jump 600, .deliver, .serve, .serve]

/- A desk at which the second order is overtaken by its cancel. -/
def narrowDesk : Desk :=
  Desk.new EngineRun.hundredGate Floor.slowVenue
    (some narrowThrottler) ⟨⟨0, 0⟩, 0⟩

/- The first order is filled, and the second is cancelled. -/
theorem concludes_live_overtaken :
    (∀ t ∈ some narrowThrottler,
        ∃ name intervalMs limit,
          Throttler.new name intervalMs limit = .ok t) ∧
      narrowDesk.AllBookable overtaken ∧
        (narrowDesk.live overtaken).IsSettled ∧
          (narrowDesk.live overtaken).Concludes Floor.slowVenue
            (narrowDesk.takings overtaken) ∧
            (narrowDesk.live overtaken).engine.blotter.orders.map
                (·.state) =
              [.filled, .cancelled] ∧
              (narrowDesk.takings overtaken).map Prod.fst =
                [0, 400, 800, 1400] := by
  have hFresh :
      ∀ t ∈ some narrowThrottler,
        ∃ name intervalMs limit,
          Throttler.new name intervalMs limit = .ok t := by
    intro t hThrottler
    cases hThrottler
    exact ⟨throttlerName, 400, 1, rfl⟩
  have hBookable : narrowDesk.AllBookable overtaken := by
    decide +kernel
  have hSettled : (narrowDesk.live overtaken).IsSettled :=
    ⟨by decide +kernel, by decide +kernel, by decide +kernel,
      by decide +kernel⟩
  exact
    ⟨hFresh, hBookable, hSettled,
      concludes_live EngineRun.hundredGate Floor.slowVenue
        ⟨⟨0, 0⟩, 0⟩ overtaken hFresh hBookable hSettled,
      by decide +kernel, by decide +kernel⟩

end Desk

end OrderDesk
