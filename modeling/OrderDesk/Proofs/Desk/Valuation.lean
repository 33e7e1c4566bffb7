import OrderDesk.Proofs.Desk.Agreement
import OrderDesk.Proofs.Desk.Cargo
import OrderDesk.Proofs.Order.Booking

/-
  This file proves that fills can be accounted for as long
  as prices are moderate: if the gate values orders at the
  price at which the venue fills them, then what the gate
  lets pass is booked when it is filled.

  Key definitions include:
    * `Decimal.IsModerate`
    * `Fill.IsBookable`
    * `Floor.moderateCargo`

  Key theorems include:
    * `Order.fillTotals?_ne_none_of_isBookable`
    * `RiskGate.isBookable_of_check`
    * `Floor.isClosed_moderateCargo`
    * `Floor.Carries.accountable`
    * `Floor.allAccountable_of_isModerate`
-/

namespace OrderDesk

------------------------------------------------------------
-- Moderate Prices
------------------------------------------------------------

/- A price that is not next to the largest one. -/
def Decimal.IsModerate
    (price : Decimal) : Prop :=
  |price.value| ≤ 2 ^ 96 - 6

/- An order that names no price but a moderate one. -/
def SubmitOrder.IsModerate
    (command : SubmitOrder) : Prop :=
  ∀ price ∈ command.price, price.IsModerate

/-
  A fill that the gate would let pass: its quantity is
  positive, its value is in range, and its price is moderate.
-/
structure Fill.IsBookable
    (fill : Fill) : Prop where
  quantity : 0 < fill.quantity
  notional : fill.quantity.mul? fill.price ≠ none
  price : fill.price.IsModerate

/- A placed order can account for a bookable fill of all of it. -/
theorem Order.fillTotals?_ne_none_of_isBookable
    {command : SubmitOrder}
    {fill : Fill}
    (venueOrderId : String)
    (hQuantity : fill.quantity = command.quantity)
    (hBookable : fill.IsBookable) :
    (Order.placed command venueOrderId).fillTotals? fill ≠
      none := by
  rcases fill with ⟨quantity, price⟩
  cases hQuantity
  rcases Option.ne_none_iff_exists'.mp hBookable.notional with
    ⟨notional, hNotional⟩
  have hPos : 0 < command.quantity.value :=
    (Decimal.pos_iff_value_pos _).mp hBookable.quantity
  have hAverage : notional.div? command.quantity ≠ none := by
    intro hNone
    rw [Decimal.div?_eq_none_iff hPos.ne', abs_of_pos hPos]
      at hNone
    exact
      absurd hBookable.price
        (not_le.mpr
          (Decimal.ne_and_lt_of_mul?_overflows hPos hNotional
            hNone).2)
  rw [fillTotals?_placed venueOrderId hBookable.quantity hNotional]
  simpa using hAverage

/-
  A gate with a reference price values an order at the price
  at which a venue with the same one fills it.
-/
theorem RiskGate.valuation?_eq
    {gate : RiskGate}
    {reference : Decimal}
    (hGate : gate.referencePrice = some reference)
    (command : SubmitOrder) :
    gate.valuation? command =
      some (command.price.getD reference) := by
  unfold valuation?
  rw [hGate]
  cases command.price <;> rfl

/-
  What the gate lets pass is bookable at the price at which
  the venue will fill it.
-/
theorem RiskGate.isBookable_of_check
    {gate : RiskGate}
    {command : SubmitOrder}
    {reference : Decimal}
    (hGate : gate.referencePrice = some reference)
    (hReference : reference.IsModerate)
    (hCommand : command.IsModerate)
    (hCheck : gate.check command = .ok ()) :
    (Fill.mk command.quantity
      (command.price.getD reference)).IsBookable := by
  rcases notional_of_check hCheck (valuation?_eq hGate command)
    with ⟨hQuantity, notional, hNotional⟩
  refine ⟨hQuantity, ?_, ?_⟩
  · rw [hNotional]
    exact Option.some_ne_none notional
  · unfold SubmitOrder.IsModerate at hCommand
    cases hLimit : command.price with
    | none => exact hReference
    | some price => exact hCommand price hLimit

------------------------------------------------------------
-- Moderate Cargo
------------------------------------------------------------

namespace Floor

variable {floor : Floor} {reference : Decimal}

/-
  Orders at moderate prices, and fills that are bookable or
  will be, if gate and venue value orders without a price at
  the same one.
-/
def moderateCargo
    (gate : RiskGate)
    (reference : Decimal) : Cargo where
  gate := gate
  reference := reference
  asked := SubmitOrder.IsModerate
  passed command :=
    (Fill.mk command.quantity
      (command.price.getD reference)).IsBookable
  filled := Fill.IsBookable
  told := Fill.IsBookable

/- What passes the gate at a moderate price is bookable. -/
theorem isClosed_moderateCargo
    {gate : RiskGate}
    (hGate : gate.referencePrice = some reference)
    (hReference : reference.IsModerate) :
    (moderateCargo gate reference).IsClosed where
  passes _ hAsked _ hCheck :=
    RiskGate.isBookable_of_check hGate hReference hAsked hCheck
  fills _ hPassed := hPassed
  tells _ hFilled := hFilled

end Floor

------------------------------------------------------------
-- Accounts
------------------------------------------------------------

/-
  A fill is reported after its order was submitted and
  accepted, and before anything else happens to it, so the
  engine holds the order as it was placed.
-/
theorem Stage.eq_placed_of_fill
    {id : OrderId}
    {sight : Sight}
    {order : Order}
    {event : OrderEvent}
    {rest : List OrderEvent}
    {fill : Fill}
    (hStage : Stage id sight)
    (hReported : sight.reported = event :: rest)
    (hOrder : sight.order = some order)
    (hFill : event.occurrence.fill? = some fill) :
    ∃ command venueOrderId history,
      order =
          { Order.placed command venueOrderId with
            history := history } ∧
        fill.quantity = command.quantity := by
  cases hStage with
  | unknown _ _ hQuiet =>
      cases hQuiet.reported.symm.trans hReported
  | refused _ _ _ _ _ _ _ _ hQuiet =>
      cases hQuiet.reported.symm.trans hReported
  | placed command other life hOther hTold hReplay hLife
      hStanding =>
      cases hOther.symm.trans hOrder
      rw [hReported] at hLife
      generalize sight.told = told at hTold hReplay hLife
      have hMem : event ∈ life := by simp [← hLife]
      cases hStanding with
      | filled venueOrderId fill' hQuantity =>
          rcases told with _ | ⟨first, _ | ⟨second, told⟩⟩
          · exact absurd rfl hTold
          · cases hLife
            cases hFill
          · rcases told with _ | ⟨third, told⟩
            · cases hLife
              cases hFill
              cases hReplay
              exact ⟨command, venueOrderId, _, rfl, hQuantity⟩
            · simp at hLife
      | _ =>
          -- No other event in the life of an order has a fill.
          simp only [List.mem_cons, List.not_mem_nil, or_false]
            at hMem
          rcases hMem with rfl | rfl | rfl <;> cases hFill

namespace Floor

variable {floor : Floor} {reference : Decimal}

/- An orderly floor can account for bookable fills. -/
theorem Carries.accountable
    {gate : RiskGate}
    (hCarries : floor.Carries (moderateCargo gate reference))
    (hOrderly : floor.Orderly)
    (move : Move) :
    floor.Accountable move := by
  intro envelope hServed event hEvent fill hFill order hOrder
  cases move with
  | serve stamp =>
      rcases List.head?_eq_some_iff.mp hServed with
        ⟨rest, hInbox⟩
      have hPayload := payload_of_mem_orderEvent? hEvent
      have hAbout :
          eventAbout? event.orderId envelope = some event := by
        rw [eventAbout?_orderEvent _ hPayload, if_pos rfl]
      have hReported := reported_of_inbox event.orderId hInbox
      rw [hAbout] at hReported
      have hBookable : fill.IsBookable := by
        have hEnvelope :=
          hCarries.inbox envelope (by simp [hInbox])
        rw [hPayload] at hEnvelope
        exact hEnvelope fill hFill
      rcases (hOrderly.stage event.orderId).eq_placed_of_fill
          hReported hOrder hFill with
        ⟨command, venueOrderId, history, rfl, hQuantity⟩
      exact
        Order.fillTotals?_ne_none_of_isBookable venueOrderId
          hQuantity hBookable
  | _ => cases hServed

/- Requests at moderate prices lead to accountable fills only. -/
theorem Carries.allAccountable
    {gate : RiskGate}
    {moves : List Move}
    (hCarries : floor.Carries (moderateCargo gate reference))
    (hOrderly : floor.Orderly)
    (hGate : gate.referencePrice = some reference)
    (hReference : reference.IsModerate)
    (hMoves :
      ∀ move ∈ moves, move.IsAllowed SubmitOrder.IsModerate) :
    floor.AllAccountable moves := by
  induction moves generalizing floor with
  | nil => trivial
  | cons move moves ih =>
      have hAccountable := hCarries.accountable hOrderly move
      refine ⟨hAccountable, ih ?_ ?_ ?_⟩
      · exact
          hCarries.move (isClosed_moderateCargo hGate hReference)
            (hMoves move List.mem_cons_self)
      · exact hOrderly.move hAccountable
      · exact fun other hOther =>
          hMoves other (List.mem_cons_of_mem _ hOther)

/-
  If the gate values orders at the price at which the venue
  fills them, and no price is next to the largest one, then
  fills can always be accounted for.
-/
theorem allAccountable_of_isModerate
    {gate : RiskGate}
    {settings : PaperSettings}
    {moves : List Move}
    (limit : Option { limit : Nat // 0 < limit })
    (hGate :
      gate.referencePrice = some settings.referencePrice)
    (hReference : settings.referencePrice.IsModerate)
    (hMoves :
      ∀ move ∈ moves, move.IsAllowed SubmitOrder.IsModerate) :
    (Floor.new gate settings limit).AllAccountable moves := by
  have hCarries :
      (Floor.new gate settings limit).Carries
        (moderateCargo gate.resume settings.referencePrice) :=
    carries_new gate settings limit rfl rfl
  exact
    hCarries.allAccountable (orderly_new gate settings limit) hGate
      hReference hMoves

end Floor

end OrderDesk
