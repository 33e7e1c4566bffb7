import OrderDesk.Proofs.Engine.Run
import OrderDesk.Proofs.Order.Accounts

/-
  This file proves what becomes of the executed quantity of
  an order. The engine adds up what it is told, and does not
  compare it with what the order asked for: no report is
  refused for being too large, or for being negative. As
  long as the reports fit what is left of an order, the
  executed quantity grows from zero to at most the quantity
  of the order.

  Key definitions include:
    * `Order.WasSubmitted`
    * `Order.WithinQuantity`
    * `EngineRun.Books`
    * `EngineRun.Fits`

  Key theorems include:
    * `EngineRun.books`
    * `EngineRun.Bounded.take`
    * `EngineRun.filled_within_quantity`
-/

namespace OrderDesk

------------------------------------------------------------
-- Orders Within Their Quantity
------------------------------------------------------------

namespace Order

variable {order : Order}

/- The order was sent to the venue. -/
def WasSubmitted
    (order : Order) : Prop :=
  ∃ event ∈ order.history, event.occurrence = .submitted

instance
    (order : Order) :
    Decidable order.WasSubmitted :=
  inferInstanceAs
    (Decidable
      (∃ event ∈ order.history, event.occurrence = .submitted))

/-
  The executed quantity is between zero and the quantity of
  the order, and so is what is left, which can be computed.
-/
def WithinQuantity
    (order : Order) : Prop :=
  0 ≤ order.filled ∧ order.filled ≤ order.quantity ∧
    ∃ leaves,
      order.leaves? = some leaves ∧
        0 ≤ leaves ∧ leaves ≤ order.quantity

theorem withinQuantity_of_filled
    (hLower : 0 ≤ order.filled)
    (hUpper : order.filled ≤ order.quantity) :
    order.WithinQuantity := by
  refine ⟨hLower, hUpper, ?_⟩
  rw [Decimal.le_iff_value_le] at hLower hUpper
  rw [Decimal.value_zero] at hLower
  have hExact :
      order.quantity.value + order.filled.neg.value =
        order.quantity.value - order.filled.value := by
    rw [Decimal.value_neg]
    ring
  have hSize :
      |order.quantity.value + order.filled.neg.value| ≤
        |order.quantity.value| := by
    rw [hExact, abs_of_nonneg (by linarith),
      abs_of_nonneg (by linarith)]
    linarith
  rcases Decimal.exists_add?_eq_some hSize with
    ⟨leaves, hLeaves⟩
  refine ⟨leaves, hLeaves, ?_, ?_⟩
  · rw [Decimal.le_iff_value_le]
    apply Decimal.le_add?_value hLeaves
    rw [hExact, Decimal.value_zero]
    linarith
  · rw [Decimal.le_iff_value_le]
    apply Decimal.add?_value_le hLeaves
    linarith

end Order

------------------------------------------------------------
-- Reports
------------------------------------------------------------

/- The order event in an input, if it is about the given order. -/
def EngineInput.report?
    (id : OrderId) :
    EngineInput → Option OrderEvent
| .message _ envelope => eventAbout? id envelope
| .pause _ => none
| .resume => none

namespace EngineRun

variable {id : OrderId} {run : EngineRun} {input : EngineInput}

/-
  What an input does to a stored order. A report that is not
  legal, or whose fill cannot be accounted for, leaves the
  order as it is, and so does everything that is no report.
  Any other report is applied: its fill is added up,
  whatever its quantity is.
-/
def Books
    (id : OrderId)
    (run : EngineRun)
    (input : EngineInput) : Prop :=
  ∀ before,
    run.engine.blotter.find? id = some before →
      ∃ after,
        (run.take input).engine.blotter.find? id = some after ∧
          match input.report? id with
          | none => after = before
          | some event =>
              match before.apply event with
              | .error _ => after = before
              | .ok next =>
                  after = next ∧
                    match event.occurrence.fill? with
                    | none => after.filled = before.filled
                    | some fill =>
                        before.filled.add? fill.quantity =
                          some after.filled

/- Every input is booked like this. -/
theorem books
    (id : OrderId)
    (run : EngineRun)
    (input : EngineInput) :
    Books id run input := by
  intro before hBefore
  cases input with
  | pause reason => exact ⟨before, hBefore, rfl⟩
  | resume => exact ⟨before, hBefore, rfl⟩
  | message stamp envelope =>
      rcases run.exists_step_of_take_message stamp envelope with
        ⟨step, hStep, hReaction⟩
      rw [hStep]
      simp only [EngineInput.report?]
      cases hReaction.orderChange id with
      | kept hFound _ _ _ hRefused =>
          refine ⟨before, hFound.trans hBefore, ?_⟩
          cases hEvent : eventAbout? id envelope with
          | none => rfl
          | some event =>
              rcases hRefused event before hEvent hBefore with
                ⟨e, hApply⟩
              simp only [hApply]
      | opened command occurrence order _ _ hNew =>
          cases hNew.symm.trans hBefore
      | advanced event order next hEvent hOrder hApply hFound =>
          cases hOrder.symm.trans hBefore
          refine ⟨next, hFound, ?_⟩
          simp only [hEvent, hApply, true_and]
          exact Order.filled_of_apply hApply

/-
  What an input reports about an order, if it is applied, is
  no more than what is left of the order, and not negative.
-/
def Fits
    (id : OrderId)
    (run : EngineRun)
    (input : EngineInput) : Prop :=
  ∀ order event fill next,
    run.engine.blotter.find? id = some order →
      input.report? id = some event →
        event.occurrence.fill? = some fill →
          order.apply event = .ok next →
            0 ≤ fill.quantity.value ∧
              order.filled.value + fill.quantity.value ≤
                order.quantity.value

/-
  The executed quantity of the order under `id` is between
  zero and its quantity, unless the order was turned down
  before it got to the venue.
-/
def Bounded
    (id : OrderId)
    (run : EngineRun) : Prop :=
  ∀ order,
    run.engine.blotter.find? id = some order →
      (0 ≤ order.filled ∧ order.filled ≤ order.quantity) ∨
        ((order.state = .invalid ∨ order.state = .denied) ∧
          ¬ order.WasSubmitted)

------------------------------------------------------------
-- One Input
------------------------------------------------------------

/- A report that fits keeps the executed quantity in bounds. -/
theorem exists_after_of_fits
    {before : Order}
    (hFits : Fits id run input)
    (hBefore : run.engine.blotter.find? id = some before) :
    ∃ after,
      (run.take input).engine.blotter.find? id = some after ∧
        before.filled ≤ after.filled ∧
          (before.filled ≤ before.quantity →
            after.filled ≤ after.quantity) := by
  have hSame : before.filled ≤ before.filled := by
    rw [Decimal.le_iff_value_le]
  rcases books id run input before hBefore with
    ⟨after, hAfter, hBooked⟩
  refine ⟨after, hAfter, ?_⟩
  cases hReport : input.report? id with
  | none =>
      rw [hReport] at hBooked
      subst hBooked
      exact ⟨hSame, fun hUpper => hUpper⟩
  | some event =>
      rw [hReport] at hBooked
      dsimp only at hBooked
      cases hApply : before.apply event with
      | error e =>
          rw [hApply] at hBooked
          subst hBooked
          exact ⟨hSame, fun hUpper => hUpper⟩
      | ok next =>
          simp only [hApply] at hBooked
          rcases hBooked with ⟨rfl, hFilled⟩
          have hTerms := Order.terms_of_apply hApply
          cases hFill : event.occurrence.fill? with
          | none =>
              simp only [hFill] at hFilled
              rw [hFilled, hTerms.2]
              exact ⟨hSame, fun hUpper => hUpper⟩
          | some fill =>
              simp only [hFill] at hFilled
              rcases hFits before event fill after hBefore hReport
                  hFill hApply with
                ⟨hPositive, hLeft⟩
              constructor
              · rw [Decimal.le_iff_value_le]
                apply Decimal.le_add?_value hFilled
                linarith
              · intro _
                rw [hTerms.2, Decimal.le_iff_value_le]
                exact Decimal.add?_value_le hFilled hLeft

/- A new order starts within bounds, or is turned down. -/
theorem Bounded.of_opened
    {command : SubmitOrder}
    {occurrence : Occurrence}
    {order : Order}
    (hApply :
      (Order.new command).apply ⟨id, occurrence⟩ = .ok order)
    (hAdmission :
      (occurrence = .submitted ∧ 0 ≤ command.quantity) ∨
        ∃ reason,
          occurrence = .invalid reason ∨
            occurrence = .denied reason) :
    (0 ≤ order.filled ∧ order.filled ≤ order.quantity) ∨
      ((order.state = .invalid ∨ order.state = .denied) ∧
        ¬ order.WasSubmitted) := by
  have hFilled := Order.filled_of_apply hApply
  have hHistory := Order.history_of_apply hApply
  have hState := Order.state_of_apply hApply
  have hTerms := Order.terms_of_apply hApply
  rcases hAdmission with ⟨rfl, hQuantity⟩ | ⟨reason, hRefused⟩
  · left
    have hZero : order.filled = 0 := hFilled
    rw [hZero, hTerms.2, Decimal.le_iff_value_le]
    exact ⟨le_refl _, hQuantity⟩
  · right
    rcases hRefused with rfl | rfl
    · refine ⟨Or.inl hState, ?_⟩
      rintro ⟨event, hEvent, hSubmitted⟩
      rw [hHistory] at hEvent
      cases List.mem_singleton.mp hEvent
      cases hSubmitted
    · refine ⟨Or.inr hState, ?_⟩
      rintro ⟨event, hEvent, hSubmitted⟩
      rw [hHistory] at hEvent
      cases List.mem_singleton.mp hEvent
      cases hSubmitted

/- Every input that fits keeps the bounds. -/
theorem Bounded.take
    (hBounded : Bounded id run)
    (hFits : Fits id run input) :
    Bounded id (run.take input) := by
  intro after hAfter
  cases hBefore : run.engine.blotter.find? id with
  | some before =>
      rcases hBounded before hBefore with
        ⟨hLower, hUpper⟩ | ⟨hDown, hUnsent⟩
      · left
        rcases exists_after_of_fits hFits hBefore with
          ⟨other, hOther, hGrown, hLimit⟩
        cases hOther.symm.trans hAfter
        rw [Decimal.le_iff_value_le] at hLower hGrown ⊢
        exact ⟨le_trans hLower hGrown, hLimit hUpper⟩
      · right
        rcases books id run input before hBefore with
          ⟨other, hOther, hBooked⟩
        cases hOther.symm.trans hAfter
        suffices hSame : after = before by
          rw [hSame]
          exact ⟨hDown, hUnsent⟩
        cases hReport : input.report? id with
        | none =>
            rw [hReport] at hBooked
            exact hBooked
        | some event =>
            rw [hReport] at hBooked
            dsimp only at hBooked
            cases hApply : before.apply event with
            | error e =>
                rw [hApply] at hBooked
                exact hBooked
            | ok next =>
                exact
                  absurd hApply
                    (Order.not_apply_of_turned_down hDown)
  | none =>
      cases input with
      | pause reason => cases hBefore.symm.trans hAfter
      | resume => cases hBefore.symm.trans hAfter
      | message stamp envelope =>
          rcases run.exists_step_of_take_message stamp
              envelope with
            ⟨step, hStep, hReaction⟩
          rw [hStep] at hAfter
          cases hReaction.orderChange id with
          | kept hFound =>
              cases (hFound.trans hBefore).symm.trans hAfter
          | opened command occurrence order _ _ _ hApply hFound
              _ hAdmission =>
              cases hFound.symm.trans hAfter
              apply Bounded.of_opened hApply
              rcases hAdmission with
                ⟨hSubmitted, hCheck, _⟩ | ⟨reason, hRefused, _⟩
              · left
                have hQuantity :=
                  (RiskGate.check_eq_ok_iff.mp hCheck).2.1
                rw [Decimal.le_iff_value_le] at hQuantity ⊢
                exact ⟨hSubmitted, (not_le.mp hQuantity).le⟩
              · exact Or.inr ⟨reason, hRefused⟩
          | advanced event order next _ hOrder =>
              cases hBefore.symm.trans hOrder

------------------------------------------------------------
-- Whole Runs
------------------------------------------------------------

/- Every input fits when it comes. -/
def AllFit
    (id : OrderId) :
    EngineRun → List EngineInput → Prop
| _, [] => True
| run, input :: rest =>
    Fits id run input ∧ AllFit id (run.take input) rest

/- Inputs that all fit go on with inputs that fit. -/
theorem AllFit.of_append
    {seen later : List EngineInput}
    (hFits : AllFit id run (seen ++ later)) :
    AllFit id (run.process seen) later := by
  induction seen generalizing run with
  | nil => exact hFits
  | cons input seen ih => exact ih hFits.2

theorem Bounded.process
    {inputs : List EngineInput}
    (hBounded : Bounded id run)
    (hFits : AllFit id run inputs) :
    Bounded id (run.process inputs) := by
  induction inputs generalizing run with
  | nil => exact hBounded
  | cons input inputs ih =>
      exact ih (hBounded.take hFits.1) hFits.2

/- The executed quantity only grows while inputs fit. -/
theorem filled_le_of_allFit
    {inputs : List EngineInput}
    {before : Order}
    (hFits : AllFit id run inputs)
    (hBefore : run.engine.blotter.find? id = some before) :
    ∃ after,
      (run.process inputs).engine.blotter.find? id =
          some after ∧
        before.filled ≤ after.filled := by
  induction inputs generalizing run before with
  | nil =>
      refine ⟨before, hBefore, ?_⟩
      rw [Decimal.le_iff_value_le]
  | cons input inputs ih =>
      rcases exists_after_of_fits hFits.1 hBefore with
        ⟨middle, hMiddle, hGrown, _⟩
      rcases ih hFits.2 hMiddle with ⟨after, hAfter, hMore⟩
      refine ⟨after, hAfter, ?_⟩
      rw [Decimal.le_iff_value_le] at hGrown hMore ⊢
      exact le_trans hGrown hMore

/-
  Every report is booked for what it says. If what is booked
  for an order fits what is left of it each time, then an
  order that was submitted is never executed for less than
  nothing or more than its quantity, what is left of it can
  be computed and is within its quantity, and its executed
  quantity never decreases.
-/
theorem filled_within_quantity
    (gate : RiskGate)
    (inputs : List EngineInput)
    (id : OrderId) :
    (∀ input, Books id ((start gate).process inputs) input) ∧
      (AllFit id (start gate) inputs →
        ∀ order,
          ((start gate).process inputs).engine.blotter.find? id =
              some order →
            (order.WasSubmitted → order.WithinQuantity) ∧
              ∀ seen before,
                seen <+: inputs →
                  ((start gate).process seen).engine.blotter.find?
                      id = some before →
                    before.filled ≤ order.filled) := by
  refine ⟨books id _, ?_⟩
  intro hFits order hOrder
  constructor
  · intro hSubmitted
    have hStart : Bounded id (start gate) := by
      intro other hOther
      cases hOther
    rcases hStart.process hFits order hOrder with
      ⟨hLower, hUpper⟩ | ⟨_, hUnsent⟩
    · exact Order.withinQuantity_of_filled hLower hUpper
    · exact absurd hSubmitted hUnsent
  · rintro seen before ⟨later, rfl⟩ hBefore
    rcases filled_le_of_allFit hFits.of_append hBefore with
      ⟨after, hAfter, hGrown⟩
    rw [← process_append] at hAfter
    cases hAfter.symm.trans hOrder
    exact hGrown

------------------------------------------------------------
-- Two Units
------------------------------------------------------------

/- A stamp for every message. -/
def fixedStamp : Stamp :=
  ⟨Uuid.ofNat 1, ⟨1, 0⟩⟩

/- A gate that lets pass orders of up to a hundred units. -/
def hundredGate : RiskGate :=
  RiskGate.new
    ⟨Decimal.ofNat 100 Decimal.hundred_lt_twoTo,
      Decimal.ofNat 10000⟩ none

/- Two units for a hundred each. -/
def twoUnits : SubmitOrder where
  orderId := OrderId.ofNat 1
  symbol := Symbol.ofText "btc"
  side := .buy
  orderType := .limit
  quantity := Decimal.ofNat 2 Decimal.two_lt_twoTo
  price := some (Decimal.ofNat 100 Decimal.hundred_lt_twoTo)

/- The venue reports something about the two units. -/
def reportTwoUnits
    (occurrence : Occurrence) : EngineInput :=
  .message fixedStamp
    (Envelope.event fixedStamp
      (.orderEvent ⟨twoUnits.orderId, occurrence⟩))

/- The venue accepts the two units and reports partial fills. -/
def fillTwoUnits
    (fills : List Fill) : List EngineInput :=
  .message fixedStamp
      (Envelope.command fixedStamp (.submitOrder twoUnits)) ::
    reportTwoUnits (.accepted "V") ::
      fills.map fun fill =>
        reportTwoUnits (.partiallyFilled fill)

/- The two units after some partial fills. -/
def twoUnitsAfter
    (fills : List Fill) : Option Order :=
  ((start hundredGate).process
    (fillTwoUnits fills)).engine.blotter.find? twoUnits.orderId

/- What can be checked of the two units holds of a stored order. -/
theorem exists_twoUnitsAfter
    (fills : List Fill)
    {P : Order → Prop}
    [DecidablePred P]
    (hAfter : (twoUnitsAfter fills).any fun order => P order) :
    ∃ order, twoUnitsAfter fills = some order ∧ P order := by
  rcases (Option.any_eq_true _ _).mp hAfter with
    ⟨order, hOrder, hHolds⟩
  exact ⟨order, hOrder, of_decide_eq_true hHolds⟩

/- One of the two units, at the price that was asked for. -/
def oneUnit : Fill :=
  ⟨Decimal.ofNat 1 Decimal.one_lt_twoTo,
    Decimal.ofNat 100 Decimal.hundred_lt_twoTo⟩

/- A fill of one of the two units fits. -/
theorem filled_within_quantity_oneUnit :
    AllFit twoUnits.orderId (start hundredGate)
        (fillTwoUnits [oneUnit]) ∧
      ∃ order,
        twoUnitsAfter [oneUnit] = some order ∧
          order.filled = Decimal.ofNat 1 ∧
            order.WithinQuantity := by
  have hFits :
      AllFit twoUnits.orderId (start hundredGate)
        (fillTwoUnits [oneUnit]) := by
    refine ⟨?_, ?_, ?_, trivial⟩
    · intro order event fill next _ hReport
      cases hReport
    · intro order event fill next _ hReport hFill
      cases hReport
      cases hFill
    · intro order event fill next hOrder hReport hFill _
      cases hReport
      cases hFill
      rcases exists_twoUnitsAfter []
          (P := fun order =>
            order.filled = 0 ∧ order.quantity = Decimal.ofNat 2)
          (by decide +kernel) with
        ⟨placed, hPlaced, hFilled, hQuantity⟩
      cases hPlaced.symm.trans hOrder
      rw [hFilled, hQuantity, Decimal.value_zero]
      norm_num [oneUnit, Decimal.value, Decimal.ofNat]
  rcases exists_twoUnitsAfter [oneUnit]
      (P := fun order =>
        order.filled = Decimal.ofNat 1 ∧ order.WasSubmitted)
      (by decide +kernel) with
    ⟨order, hOrder, hFilled, hSubmitted⟩
  have hWithin :=
    (filled_within_quantity hundredGate (fillTwoUnits [oneUnit])
      twoUnits.orderId).2 hFits order hOrder
  exact
    ⟨hFits, order, hOrder, hFilled, hWithin.1 hSubmitted⟩

/-
  Three units of two, and then less than none: the engine
  books whatever is reported, until not even what is left
  can be computed.
-/
theorem fills_out_of_bounds :
    (∃ order,
      twoUnitsAfter [⟨Decimal.ofNat 3, Decimal.ofNat 100⟩] =
          some order ∧
        order.WasSubmitted ∧ order.quantity < order.filled) ∧
      (∃ order,
        twoUnitsAfter
            [⟨Decimal.ofNat 3, Decimal.ofNat 100⟩,
              ⟨(Decimal.ofNat 4).neg, Decimal.ofNat 100⟩] =
            some order ∧
          order.WasSubmitted ∧ order.filled < 0) ∧
        ∃ order,
          twoUnitsAfter
              [⟨(Decimal.ofNat 79228162514264337593543950335).neg,
                0⟩] =
              some order ∧
            order.WasSubmitted ∧ order.leaves? = none := by
  refine ⟨?_, ?_, ?_⟩
  · apply exists_twoUnitsAfter
    decide +kernel
  · apply exists_twoUnitsAfter
    decide +kernel
  · apply exists_twoUnitsAfter
    decide +kernel

end EngineRun

end OrderDesk
