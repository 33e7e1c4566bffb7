import OrderDesk.Proofs.Desk.Schedule

/-
  This file proves that limits hold where orders are filled
  and not only at the gate: a desk whose settings are in
  order fills nothing but positive quantities at positive
  prices, neither of them beyond what the settings allow.

  The gate values an order before the venue prices its fill,
  and each does so in its own way. They agree because both
  fall back on the same price.

  Key definitions include:
    * `Fill.IsWithin`
    * `Occasion`
    * `Config.KeepsLimits`

  Key theorems include:
    * `RiskGate.isWithin_of_check`
    * `Floor.Carries.meetAll`
    * `Config.keepsLimits`
    * `Demo.isWithin_of_published`
-/

namespace OrderDesk

------------------------------------------------------------
-- Limits
------------------------------------------------------------

/-
  A fill is within limits: its quantity and its price are
  positive, the quantity is not too large, and neither is
  the product, which can be computed.
-/
structure Fill.IsWithin
    (limits : RiskLimits)
    (fill : Fill) : Prop where
  quantity_pos : 0 < fill.quantity
  quantity_le : fill.quantity ≤ limits.maxQuantity
  price_pos : 0 < fill.price
  notional_le :
    ∃ notional,
      fill.quantity.mul? fill.price = some notional ∧
        notional ≤ limits.maxNotional

/- An order that makes sense on its own has no price but a positive one. -/
theorem SubmitOrder.price_pos_of_validate
    {command : SubmitOrder}
    {price : Decimal}
    (hValid : command.validate = .ok ())
    (hPrice : command.price = some price) :
    0 < price := by
  unfold validate at hValid
  rw [hPrice] at hValid
  cases hType : command.orderType with
  | market =>
      rw [hType] at hValid
      cases hValid
  | limit =>
      rw [hType] at hValid
      dsimp only at hValid
      split at hValid
      · cases hValid
      · rename_i hNot
        exact (Decimal.not_le_iff _ _).mp hNot

/-
  What the gate lets pass is within limits at the price at
  which a venue fills it that falls back on the same price
  as the gate.
-/
theorem RiskGate.isWithin_of_check
    {gate : RiskGate}
    {command : SubmitOrder}
    {reference : Decimal}
    (hGate : gate.referencePrice = some reference)
    (hReference : 0 < reference)
    (hValid : command.validate = .ok ())
    (hCheck : gate.check command = .ok ()) :
    (Fill.mk command.quantity
      (command.price.getD reference)).IsWithin gate.limits := by
  have hPrice := valuation?_eq hGate command
  rcases notional_of_check hCheck hPrice with
    ⟨hQuantity, notional, hNotional⟩
  rcases check_eq_ok_iff.mp hCheck with ⟨_, _, hSmall, hCheap⟩
  refine ⟨hQuantity, (Decimal.not_lt_iff _ _).mp hSmall, ?_, ?_⟩
  · cases hLimit : command.price with
    | none => exact hReference
    | some price =>
        exact SubmitOrder.price_pos_of_validate hValid hLimit
  · refine ⟨notional, hNotional, ?_⟩
    unfold checkNotional at hCheap
    simp only [hPrice, hNotional] at hCheap
    split at hCheap
    · cases hCheap
    · rename_i hNot
      exact (Decimal.not_lt_iff _ _).mp hNot

theorem Config.referencePrice_pos
    {config : Config}
    (hValid : config.validate = .ok ()) :
    0 < config.paper.referencePrice := by
  unfold validate at hValid
  repeat (split at hValid; · cases hValid)
  rename_i hNot
  exact (Decimal.not_le_iff _ _).mp hNot

theorem Config.exists_throttler
    {config : Config}
    {α : Type}
    (hValid : config.validate = .ok ())
    (name : String) :
    ∃ throttler : Throttler α,
      Throttler.new name config.throttle.intervalMs
          config.throttle.maxPerInterval =
        .ok throttler := by
  unfold validate at hValid
  split at hValid
  · cases hValid
  · rename_i hInterval
    split at hValid
    · cases hValid
    · rename_i hLimit
      unfold Throttler.new
      rw [dif_neg hInterval, dif_neg hLimit]
      exact ⟨_, rfl⟩

------------------------------------------------------------
-- What May Happen To A Floor
------------------------------------------------------------

/-
  What may happen to a floor: a move, or that anybody sends
  the engine any message, such as a report that is not from
  the venue.
-/
inductive Occasion where
  | move (move : Move)
  | message (envelope : Envelope TradingMessage)

namespace Floor

/- Something happens to the floor. -/
def meet
    (floor : Floor) :
    Occasion → Floor
| .move move => floor.move move
| .message envelope => floor.enqueue envelope

/- One thing happens after the other. -/
def meetAll
    (floor : Floor)
    (occasions : List Occasion) : Floor :=
  occasions.foldl meet floor

/- Nothing else gets on the floor, whatever messages there are. -/
theorem Carries.meetAll
    {cargo : Cargo}
    {floor : Floor}
    (hCarries : floor.Carries cargo)
    (hClosed : cargo.IsClosed)
    (hAsked : ∀ command, cargo.asked command)
    (hTold : ∀ fill, cargo.told fill)
    (occasions : List Occasion) :
    (floor.meetAll occasions).Carries cargo := by
  induction occasions generalizing floor with
  | nil => exact hCarries
  | cons occasion occasions ih =>
      apply ih
      cases occasion with
      | move move =>
          apply hCarries.move hClosed
          cases move with
          | submit header command => exact hAsked command
          | _ => trivial
      | message envelope =>
          apply hCarries.enqueue
          cases envelope.payload with
          | submitOrder command => exact hAsked command
          | orderEvent event => exact fun fill _ => hTold fill
          | _ => trivial

end Floor

------------------------------------------------------------
-- Desks That Keep Their Limits
------------------------------------------------------------

namespace Config

/-
  What there may be on the floor of a desk: clients may ask
  for anything, and what is filled is within limits.
-/
def cargo
    (config : Config)
    (told : Fill → Prop) : Cargo where
  gate :=
    RiskGate.new config.risk (some config.paper.referencePrice)
  reference := config.paper.referencePrice
  asked _ := True
  passed command :=
    (Fill.mk command.quantity
      (command.price.getD
        config.paper.referencePrice)).IsWithin config.risk
  filled := Fill.IsWithin config.risk
  told := told

/- With settings in order the gate makes sure of that. -/
theorem isClosed_cargo
    {config : Config}
    {told : Fill → Prop}
    (hValid : config.validate = .ok ())
    (hTold : ∀ fill, fill.IsWithin config.risk → told fill) :
    (config.cargo told).IsClosed where
  passes _ _ hShape hCheck :=
    RiskGate.isWithin_of_check rfl (referencePrice_pos hValid)
      hShape hCheck
  fills _ hPassed := hPassed
  tells := hTold

/-
  Settings keep their limits: every throttler can be made,
  and on the floor of the desk the venue reports no fill but
  one that is within limits, whatever happens and whoever
  sends messages to the engine.
-/
structure KeepsLimits
    (config : Config) : Prop where
  throttles :
    ∀ (α : Type) (name : String),
      ∃ throttler : Throttler α,
        Throttler.new name config.throttle.intervalMs
            config.throttle.maxPerInterval =
          .ok throttler
  fills :
    ∀ stamps : Stamps,
      ∃ desk,
        Demo.desk config stamps = .ok desk ∧
          ∀ occasions : List Occasion,
            ∀ report ∈ (desk.asFloor.meetAll occasions).reports,
              ∀ event ∈ orderEvent? report,
                ∀ fill ∈ event.occurrence.fill?,
                  fill.IsWithin config.risk

theorem carries_desk
    {config : Config}
    {stamps : Stamps}
    {desk : Desk}
    (told : Fill → Prop)
    (hDesk : Demo.desk config stamps = .ok desk) :
    desk.asFloor.Carries (config.cargo told) := by
  rcases Demo.eq_of_desk hDesk with ⟨throttler, hFresh, rfl⟩
  rw [Desk.asFloor_new]
  · exact Floor.carries_new _ _ _ rfl rfl
  · intro other hOther
    cases hOther
    exact hFresh

/- Settings that are in order keep their limits. -/
theorem keepsLimits
    {config : Config}
    (hValid : config.validate = .ok ()) :
    config.KeepsLimits where
  throttles _ name := exists_throttler hValid name
  fills := by
    intro stamps
    rcases exists_throttler hValid Desk.throttlerName with
      ⟨throttler, hThrottler⟩
    have hDesk :
        Demo.desk config stamps =
          .ok
            (Desk.new
              (RiskGate.new config.risk
                (some config.paper.referencePrice))
              config.paper (some throttler) stamps) := by
      unfold Demo.desk
      rw [hThrottler]
      rfl
    refine ⟨_, hDesk, ?_⟩
    intro occasions report hReport event hEvent
    have hCarries :=
      (carries_desk (fun _ => True) hDesk).meetAll
        (isClosed_cargo hValid fun _ _ => trivial)
        (fun _ => trivial) (fun _ => trivial) occasions
    have hMeets := hCarries.reports report hReport
    rw [payload_of_mem_orderEvent? hEvent] at hMeets
    exact hMeets

/- Two units at whatever price the venue has. -/
def marketOrder : SubmitOrder where
  orderId := OrderId.ofNat 6
  symbol := Demo.ether
  side := .sell
  orderType := .market
  quantity := Decimal.ofNat 2 Decimal.two_lt_twoTo
  price := none

/- The two units are asked for, accepted and filled. -/
def marketRun : List Occasion :=
  let fill : PendingFill :=
    ⟨marketOrder.orderId,
      ⟨marketOrder.quantity, standard.paper.referencePrice⟩⟩
  [.move .start,
    .message ⟨Floor.fixedHeader, .submitOrder marketOrder⟩,
    .move (.serve EngineRun.fixedStamp),
    .move (.deliver EngineRun.fixedStamp),
    .move (.execute fill),
    .move (.report EngineRun.fixedStamp fill)]

/- The settings that hold by default keep limits, and fill orders. -/
theorem keepsLimits_standard :
    standard.validate = .ok () ∧
      standard.KeepsLimits ∧
        (Demo.desk standard ⟨⟨0, 0⟩, 1⟩).toOption.map
            (fun desk =>
              ((desk.asFloor.meetAll marketRun).reports.filterMap
                orderEvent?).filterMap (·.occurrence.fill?)) =
          some [⟨Decimal.ofNat 2, Decimal.ofNat 100⟩] := by
  have hValid : standard.validate = .ok () := by decide +kernel
  exact ⟨hValid, keepsLimits hValid, by decide +kernel⟩

end Config

/-
  As far as anybody can see who observes the desk of the
  program, all fills are within limits, whatever clients ask
  for and however time passes.
-/
theorem Demo.isWithin_of_published
    {config : Config}
    {stamps : Stamps}
    {desk : Desk}
    (hValid : config.validate = .ok ())
    (hDesk : Demo.desk config stamps = .ok desk)
    (deeds : List Deed) :
    ∀ publication ∈ (desk.undergo deeds).published,
      ∀ event ∈ orderEvent? publication.2,
        ∀ fill ∈ event.occurrence.fill?,
          fill.IsWithin config.risk := by
  intro publication hPublication event hEvent
  have hCarries :=
    Config.carries_desk (Fill.IsWithin config.risk) hDesk
  have hClosed :=
    Config.isClosed_cargo hValid
      fun fill (hWithin : fill.IsWithin config.risk) => hWithin
  have hDeeds :
      ∀ deed ∈ deeds, deed.IsAllowed fun _ => True := by
    intro deed _
    cases deed with
    | send requests =>
        intro request _
        cases request <;> trivial
    | _ => trivial
  rcases played_desk (fun _ => True) hDesk with
    ⟨hPlayed, hNothing⟩
  rcases hPlayed.undergo hDeeds with
    ⟨_, ⟨moves, hMoves, rfl⟩, hShows⟩
  have hFloor :
      publication.2 ∈ (desk.asFloor.play moves).published := by
    rw [hShows.published]
    exact List.mem_map_of_mem hPublication
  rcases (hCarries.play hClosed hMoves).2 _ hFloor with
    hBefore | hMeets
  · unfold Desk.asFloor at hBefore
    rw [hNothing] at hBefore
    cases hBefore
  · rw [payload_of_mem_orderEvent? hEvent] at hMeets
    exact hMeets

end OrderDesk
