import OrderDesk.Proofs.Order.Accounts
import OrderDesk.Proofs.Order.Offers
import OrderDesk.Timestamp

/-
  This file proves that an order takes an event as a whole or
  leaves it, and says exactly when it does which.

  The order is dated and is revised in place. A revision that
  stops leaves what was written before it stopped, so that it
  is a theorem, and not a matter of notation, that a refused
  event leaves no trace: everything that can stop a revision
  comes before the first thing that is written.

  Key definitions include:
    * `InPlace`
    * `DatedOrder`
    * `Revision`
    * `DatedOrder.offer`
    * `DatedOrder.TakesOrLeaves`

  Key theorems include:
    * `OrderState.next?_eq_some_iff`
    * `Revision.move_of_examine`
    * `DatedOrder.offer_eq`
    * `DatedOrder.takesOrLeaves_offer`
-/

namespace OrderDesk

------------------------------------------------------------
-- Rows Of The Table
------------------------------------------------------------

namespace OrderState

variable {state next : OrderState} {kind : EventKind}

/- A move leads where its row of the table says. -/
theorem next?_eq_some_iff :
    state.next? kind = some next ↔
      ⟨state, kind, next⟩ ∈ transitions := by
  have hRows :
      ∀ row ∈ transitions,
        row.state.next? row.trigger = some row.next := by
    decide
  constructor
  · intro hNext
    rcases TransitionTable.exists_row_of_next? hNext with
      ⟨row, hRow, rfl, rfl, rfl⟩
    exact hRow
  · intro hRow
    exact hRows ⟨state, kind, next⟩ hRow

theorem next?_eq_none_iff :
    state.next? kind = none ↔
      ∀ next, ⟨state, kind, next⟩ ∉ transitions := by
  rw [Option.eq_none_iff_forall_ne_some]
  exact forall_congr' fun next => not_congr next?_eq_some_iff

end OrderState

------------------------------------------------------------
-- What Comes Of An Event
------------------------------------------------------------

namespace Order

/-
  An event is refused for its kind, or else for its fill, or
  it is applied.
-/
theorem apply_cases
    (order : Order)
    (event : OrderEvent) :
    (order.state.next? event.kind = none ∧
        order.apply event =
          .error (.transition ⟨order.state, event.kind⟩)) ∨
      (∃ next fill,
        order.state.next? event.kind = some next ∧
          event.occurrence.fill? = some fill ∧
            order.FillOverflows fill ∧
              order.apply event = .error (.fillOverflow fill)) ∨
        ∃ next totals,
          order.state.next? event.kind = some next ∧
            (∀ fill,
              event.occurrence.fill? = some fill →
                ¬ order.FillOverflows fill) ∧
              order.apply event =
                .ok (order.advance event next totals) := by
  cases hNext : order.state.next? event.kind with
  | none =>
      refine .inl ⟨rfl, ?_⟩
      unfold apply
      rw [hNext]
  | some next =>
      refine .inr ?_
      cases hFill : event.occurrence.fill? with
      | none =>
          exact
            .inr ⟨next, _, rfl, by simp,
              apply_of_fill?_eq_none hNext hFill⟩
      | some fill =>
          cases hTotals : order.fillTotals? fill with
          | none =>
              refine
                .inl ⟨next, fill, rfl, rfl,
                  fillTotals?_eq_none_iff.mp hTotals, ?_⟩
              simp [apply, totalsAfter, hNext, hFill, hTotals,
                Except.map]
          | some totals =>
              refine .inr ⟨next, totals, rfl, ?_, ?_⟩
              · intro other hOther
                cases hOther
                rw [← fillTotals?_eq_none_iff, hTotals]
                exact Option.some_ne_none totals
              · exact
                  apply_eq_ok_iff.mpr
                    ⟨next, totals, hNext,
                      (totalsAfter_eq_ok_iff order hFill).mpr
                        hTotals, rfl⟩

/- An event is refused for its kind if the table has no row for it. -/
theorem apply_eq_transition_iff
    (order : Order)
    (event : OrderEvent)
    (refused : InvalidTransition OrderState EventKind) :
    order.apply event = .error (.transition refused) ↔
      refused = ⟨order.state, event.kind⟩ ∧
        ∀ next,
          ⟨order.state, event.kind, next⟩ ∉
            OrderState.transitions := by
  rw [← OrderState.next?_eq_none_iff]
  rcases order.apply_cases event with
    ⟨hNext, hApply⟩ | ⟨next, fill, hNext, _, _, hApply⟩ |
      ⟨next, totals, hNext, _, hApply⟩
  · simp [hNext, hApply, eq_comm]
  · simp [hNext, hApply]
  · simp [hNext, hApply]

/- An event is refused for its fill if it is legal and overflows. -/
theorem apply_eq_fillOverflow_iff
    (order : Order)
    (event : OrderEvent)
    (fill : Fill) :
    order.apply event = .error (.fillOverflow fill) ↔
      (∃ next,
        ⟨order.state, event.kind, next⟩ ∈
          OrderState.transitions) ∧
        event.occurrence.fill? = some fill ∧
          order.FillOverflows fill := by
  simp only [← OrderState.next?_eq_some_iff]
  rcases order.apply_cases event with
    ⟨hNext, hApply⟩ | ⟨next, other, hNext, hFill, hOverflows, hApply⟩ |
      ⟨next, totals, hNext, hFits, hApply⟩
  · simp [hNext, hApply]
  · simp only [hNext, hFill, hApply, Option.some.injEq,
      exists_eq', true_and, Except.error.injEq,
      OrderError.fillOverflow.injEq]
    constructor
    · rintro rfl
      exact ⟨rfl, hOverflows⟩
    · exact And.left
  · simp only [hApply, reduceCtorEq, false_iff]
    rintro ⟨_, hFill, hOverflows⟩
    exact hFits fill hFill hOverflows

/- An event is applied if it is legal and no fill of it overflows. -/
theorem exists_apply_eq_ok_iff
    (order : Order)
    (event : OrderEvent)
    (state : OrderState) :
    (∃ next, order.apply event = .ok next ∧ next.state = state) ↔
      ⟨order.state, event.kind, state⟩ ∈
          OrderState.transitions ∧
        ∀ fill,
          event.occurrence.fill? = some fill →
            ¬ order.FillOverflows fill := by
  rw [← OrderState.next?_eq_some_iff]
  rcases order.apply_cases event with
    ⟨hNext, hApply⟩ | ⟨next, fill, hNext, hFill, hOverflows, hApply⟩ |
      ⟨next, totals, hNext, hFits, hApply⟩
  · simp [hNext, hApply]
  · simp only [hApply, reduceCtorEq, false_and, exists_false,
      false_iff]
    rintro ⟨_, hFits⟩
    exact hFits fill hFill hOverflows
  · simp only [hNext, hApply, Except.ok.injEq, exists_eq_left',
      Option.some.injEq]
    exact (and_iff_left hFits).symm

end Order

------------------------------------------------------------
-- Changes In Place
------------------------------------------------------------

/-
  A change in place, which may stop with an error. What was
  written before it stops stays written.
-/
abbrev InPlace (ε σ : Type) :=
  ExceptT ε (StateM σ)

namespace InPlace

variable {ε σ α β : Type}

/- Run a change: its answer, and what it leaves. -/
def runOn
    (change : InPlace ε σ α)
    (before : σ) : Except ε α × σ :=
  change.run.run before

@[simp] theorem runOn_pure
    (a : α)
    (before : σ) :
    (pure a : InPlace ε σ α).runOn before = (.ok a, before) :=
  rfl

@[simp] theorem runOn_get
    (before : σ) :
    (get : InPlace ε σ σ).runOn before = (.ok before, before) :=
  rfl

@[simp] theorem runOn_modify
    (change : σ → σ)
    (before : σ) :
    (modify change : InPlace ε σ Unit).runOn before =
      (.ok (), change before) :=
  rfl

/- A change goes on with what its first part has left. -/
@[simp] theorem runOn_bind
    (first : InPlace ε σ α)
    (rest : α → InPlace ε σ β)
    (before : σ) :
    (first >>= rest).runOn before =
      match first.runOn before with
      | (.ok a, middle) => (rest a).runOn middle
      | (.error e, middle) => (.error e, middle) := by
  unfold runOn
  rw [ExceptT.run_bind, StateT.run_bind]
  rcases first.run.run before with ⟨answer, middle⟩
  cases answer <;> rfl

section Sequence

variable {first : InPlace ε σ α} {rest : α → InPlace ε σ β}
variable {before middle : σ}

theorem runOn_bind_of_ok
    {a : α}
    (hFirst : first.runOn before = (.ok a, middle)) :
    (first >>= rest).runOn before = (rest a).runOn middle := by
  rw [runOn_bind, hFirst]

theorem runOn_bind_of_error
    {e : ε}
    (hFirst : first.runOn before = (.error e, middle)) :
    (first >>= rest).runOn before = (.error e, middle) := by
  rw [runOn_bind, hFirst]

end Sequence

end InPlace

------------------------------------------------------------
-- Revisions In Place
------------------------------------------------------------

/- An order with the times when it was made and last revised. -/
structure DatedOrder where
  order : Order
  createdAt : Timestamp
  updatedAt : Timestamp
deriving DecidableEq

/- A change of a dated order in place. -/
abbrev Revision :=
  InPlace OrderError DatedOrder

namespace Revision

/- Write to the order. -/
def write
    (change : Order → Order) : Revision Unit :=
  modify fun dated => { dated with order := change dated.order }

/-
  Look at an event before anything is written: it has to be
  legal, and its fill, if it has one, has to be accountable.
-/
def examine
    (event : OrderEvent) :
    Revision (Option (Decimal × Option Decimal)) := do
  let dated ← get
  if dated.order.machine.canProcess event.kind then
    match dated.order.newTotals event.occurrence with
    | .error e => throw e
    | .ok totals? => return totals?
  else
    throw (.transition ⟨dated.order.state, event.kind⟩)

/- Move the machine of the order, which may refuse as well. -/
def move
    (kind : EventKind) : Revision OrderState := do
  let dated ← get
  match dated.order.machine.process kind with
  | .error refused => throw (.transition refused)
  | .ok machine =>
      write fun order => { order with state := machine.state }
      return machine.state

/- Write down an event at the time `now`, and the new accounts. -/
def record
    (now : Timestamp)
    (event : OrderEvent)
    (totals? : Option (Decimal × Option Decimal)) :
    Revision Unit := do
  write fun order => order.note event.occurrence
  write fun order => order.book totals?
  modify fun dated => { dated with updatedAt := now }
  write fun order =>
    { order with history := order.history ++ [event] }

/- Take an event in at the time `now`. -/
def takeIn
    (now : Timestamp)
    (event : OrderEvent) : Revision OrderState := do
  let totals? ← examine event
  let state ← move event.kind
  record now event totals?
  return state

------------------------------------------------------------
-- Running Revisions
------------------------------------------------------------

open InPlace

variable {before middle : DatedOrder} {event : OrderEvent}
variable {totals? : Option (Decimal × Option Decimal)}

theorem runOn_examine_of_next?_eq_none
    (hNext : before.order.state.next? event.kind = none) :
    (examine event).runOn before =
      (.error (.transition ⟨before.order.state, event.kind⟩),
        before) := by
  have hCan :
      before.order.machine.canProcess event.kind = false :=
    congrArg Option.isSome hNext
  unfold examine
  rw [runOn_bind_of_ok (runOn_get before), hCan]
  rfl

theorem runOn_examine_of_next?_eq_some
    {state : OrderState}
    (hNext : before.order.state.next? event.kind = some state) :
    (examine event).runOn before =
      (before.order.newTotals event.occurrence, before) := by
  have hCan :
      before.order.machine.canProcess event.kind = true :=
    congrArg Option.isSome hNext
  unfold examine
  rw [runOn_bind_of_ok (runOn_get before), hCan, if_pos rfl]
  cases before.order.newTotals event.occurrence <;> rfl

theorem runOn_move
    {kind : EventKind}
    {state : OrderState}
    (hNext : before.order.state.next? kind = some state) :
    (move kind).runOn before =
      (.ok state,
        { before with order := { before.order with state := state } }) := by
  have hProcess :
      before.order.machine.process kind =
        .ok { before.order.machine with state := state } := by
    have hTable :
        before.order.machine.table.next?
            before.order.machine.state kind =
          some state :=
      hNext
    unfold StateMachine.process
    rw [hTable]
  unfold move
  rw [runOn_bind_of_ok (runOn_get before), hProcess]
  rfl

/-
  An examination writes nothing, and once it is passed, the
  machine does not refuse any more.
-/
theorem move_of_examine
    (hExamine : (examine event).runOn before = (.ok totals?, middle)) :
    middle = before ∧
      ∃ state after,
        (move event.kind).runOn middle = (.ok state, after) := by
  cases hNext : before.order.state.next? event.kind with
  | none =>
      rw [runOn_examine_of_next?_eq_none hNext] at hExamine
      cases hExamine
  | some state =>
      rw [runOn_examine_of_next?_eq_some hNext] at hExamine
      cases (Prod.mk.inj hExamine).2
      exact ⟨rfl, state, _, runOn_move hNext⟩

end Revision

------------------------------------------------------------
-- Offers To Dated Orders
------------------------------------------------------------

namespace DatedOrder

/-
  Offer an event to a dated order at the time `now`. The
  answer is the state that it leads to, or why it is refused;
  the order is left as it is by then.
-/
def offer
    (dated : DatedOrder)
    (now : Timestamp)
    (event : OrderEvent) :
    Except OrderError OrderState × DatedOrder :=
  (Revision.takeIn now event).runOn dated

/-
  An offer either applies the event and notes the time, or
  changes nothing.
-/
theorem offer_eq
    (dated : DatedOrder)
    (now : Timestamp)
    (event : OrderEvent) :
    dated.offer now event =
      match dated.order.apply event with
      | .ok next => (.ok next.state, ⟨next, dated.createdAt, now⟩)
      | .error e => (.error e, dated) := by
  unfold offer Revision.takeIn Order.apply
  cases hNext : dated.order.state.next? event.kind with
  | none =>
      exact
        InPlace.runOn_bind_of_error
          (Revision.runOn_examine_of_next?_eq_none hNext)
  | some state =>
      have hExamine := Revision.runOn_examine_of_next?_eq_some hNext
      rcases dated.order.newTotals_eq event.occurrence with
        ⟨totals?, totals, hNew, hAfter⟩ | ⟨e, hNew, hAfter⟩
      · rw [hNew] at hExamine
        rw [InPlace.runOn_bind_of_ok hExamine,
          InPlace.runOn_bind_of_ok (Revision.runOn_move hNext),
          hAfter]
        have hBook := Order.book_note_eq_advance state hNew hAfter
        exact
          congrArg
            (fun next =>
              (Except.ok state,
                (⟨next, dated.createdAt, now⟩ : DatedOrder)))
            hBook
      · rw [hNew] at hExamine
        rw [InPlace.runOn_bind_of_error hExamine, hAfter]
        rfl

/-
  What comes of an event that is offered to the order
  `before` at the time `now`. It is refused if the table has
  no row for it, or else if it is a fill that overflows, and
  in both cases the order is left as it was, its dates
  included. Otherwise the order moves where the row leads,
  and the event joins its history. After an examination the
  machine never refuses.
-/
structure TakesOrLeaves
    (before : DatedOrder)
    (now : Timestamp)
    (event : OrderEvent)
    (answer : Except OrderError OrderState)
    (after : DatedOrder) : Prop where
  apply_eq :
    before.order.apply event = answer.map fun _ => after.order
  transition_iff :
    ∀ refused,
      answer = .error (.transition refused) ↔
        refused = ⟨before.order.state, event.kind⟩ ∧
          ∀ next,
            ⟨before.order.state, event.kind, next⟩ ∉
              OrderState.transitions
  overflow_iff :
    ∀ fill,
      answer = .error (.fillOverflow fill) ↔
        (∃ next,
          ⟨before.order.state, event.kind, next⟩ ∈
            OrderState.transitions) ∧
          event.occurrence.fill? = some fill ∧
            before.order.FillOverflows fill
  ok_iff :
    ∀ next,
      answer = .ok next ↔
        ⟨before.order.state, event.kind, next⟩ ∈
            OrderState.transitions ∧
          ∀ fill,
            event.occurrence.fill? = some fill →
              ¬ before.order.FillOverflows fill
  left : ∀ e, answer = .error e → after = before
  taken :
    ∀ next,
      answer = .ok next →
        after.order.state = next ∧
          after.order.history =
              before.order.history ++ [event] ∧
            after.createdAt = before.createdAt ∧
              after.updatedAt = now
  moves :
    ∀ totals? middle,
      (Revision.examine event).runOn before =
          (.ok totals?, middle) →
        ∃ state moved,
          (Revision.move event.kind).runOn middle =
            (.ok state, moved)

/- Whatever is offered to an order, it takes it or leaves it. -/
theorem takesOrLeaves_offer
    (before : DatedOrder)
    (now : Timestamp)
    (event : OrderEvent) :
    TakesOrLeaves before now event
      (before.offer now event).1 (before.offer now event).2 := by
  have hTransition := before.order.apply_eq_transition_iff event
  have hOverflow := before.order.apply_eq_fillOverflow_iff event
  have hOk := before.order.exists_apply_eq_ok_iff event
  have hMoves :
      ∀ totals? middle,
        (Revision.examine event).runOn before =
            (.ok totals?, middle) →
          ∃ state moved,
            (Revision.move event.kind).runOn middle =
              (.ok state, moved) :=
    fun _ _ hExamine => (Revision.move_of_examine hExamine).2
  rw [offer_eq]
  cases hApply : before.order.apply event with
  | error e =>
      exact
        { apply_eq := hApply
          transition_iff := by simpa [hApply] using hTransition
          overflow_iff := by simpa [hApply] using hOverflow
          ok_iff := by simpa [hApply] using hOk
          left := fun _ _ => rfl
          taken := by simp
          moves := hMoves }
  | ok next =>
      exact
        { apply_eq := hApply
          transition_iff := by simpa [hApply] using hTransition
          overflow_iff := by simpa [hApply] using hOverflow
          ok_iff := by simpa [hApply] using hOk
          left := by simp
          taken := by
            intro state hAnswer
            cases hAnswer
            exact ⟨rfl, Order.history_of_apply hApply, rfl, rfl⟩
          moves := hMoves }

end DatedOrder

end OrderDesk
