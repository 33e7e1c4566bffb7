import OrderDesk.Order.Basic

/-
  This file proves what an event does to an order, and that
  an order is nothing but what its history makes of the
  command it came from.

  Key definitions include:
    * `EventKind.target`
    * `Order.replay`

  Key theorems include:
    * `OrderState.next?_eq_some`
    * `Order.apply_eq_ok_iff`
    * `Order.replay_append_singleton`
    * `Order.history_of_replay`
    * `Order.state_of_replay`
-/

namespace OrderDesk

------------------------------------------------------------
-- Transitions
------------------------------------------------------------

namespace TransitionTable

variable {S T : Type} [DecidableEq S] [DecidableEq T]

/- Every move of a table is one of its rows. -/
theorem exists_row_of_next?
    {table : TransitionTable S T}
    {state next : S}
    {trigger : T}
    (hNext : table.next? state trigger = some next) :
    ∃ row ∈ table,
      row.state = state ∧ row.trigger = trigger ∧
        row.next = next := by
  unfold next? at hNext
  rcases Option.map_eq_some_iff.mp hNext with
    ⟨row, hRow, hRowNext⟩
  have hFits := List.find?_some hRow
  have hMem := List.mem_of_find?_eq_some hRow
  simp only [decide_eq_true_eq] at hFits
  exact
    ⟨row, List.mem_reverse.mp hMem, hFits.1, hFits.2,
      hRowNext⟩

end TransitionTable

namespace EventKind

/- The state that events of a kind lead to, where they are legal. -/
def target :
    EventKind → OrderState
| submitted => .submitted
| accepted => .accepted
| rejected => .rejected
| working => .working
| partiallyFilled => .partiallyFilled
| filled => .filled
| cancelled => .cancelled
| expired => .expired
| invalid => .invalid
| denied => .denied

end EventKind

namespace OrderState

/- An event leads to the state of its name or nowhere. -/
theorem next?_eq_some
    {state next : OrderState}
    {kind : EventKind}
    (hNext : state.next? kind = some next) :
    next = kind.target := by
  have hRows :
      ∀ row ∈ transitions, row.next = row.trigger.target := by
    decide
  rcases TransitionTable.exists_row_of_next? hNext with
    ⟨row, hRow, _, hTrigger, hRowNext⟩
  rw [← hRowNext, ← hTrigger]
  exact hRows row hRow

end OrderState

------------------------------------------------------------
-- Applying Events
------------------------------------------------------------

namespace Order

variable {order next : Order}
variable {event : OrderEvent}

/-
  An event is applied if it is legal and its fill can be
  accounted for, and then the order advances by it.
-/
theorem apply_eq_ok_iff :
    order.apply event = .ok next ↔
      ∃ state totals,
        order.state.next? event.kind = some state ∧
          order.totalsAfter event.occurrence = .ok totals ∧
            next = order.advance event state totals := by
  unfold apply
  cases hNext : order.state.next? event.kind with
  | none => simp
  | some state =>
      cases hTotals : order.totalsAfter event.occurrence with
      | error e => simp [Except.map]
      | ok totals => simp [Except.map, eq_comm]

/- An event that is applied moves the order to its target. -/
theorem state_of_apply
    (hApply : order.apply event = .ok next) :
    next.state = event.kind.target := by
  rcases apply_eq_ok_iff.mp hApply with
    ⟨state, totals, hNext, _, rfl⟩
  exact OrderState.next?_eq_some hNext

/- Nothing is ever legal for an order that was turned down. -/
theorem not_apply_of_turned_down
    (hState : order.state = .invalid ∨ order.state = .denied) :
    order.apply event ≠ .ok next := by
  intro hApply
  rcases apply_eq_ok_iff.mp hApply with
    ⟨state, totals, hNext, _⟩
  rcases hState with hState | hState
  · rw [hState] at hNext
    cases hKind : event.kind <;> rw [hKind] at hNext <;>
      cases hNext
  · rw [hState] at hNext
    cases hKind : event.kind <;> rw [hKind] at hNext <;>
      cases hNext

/- An order that can be cancelled is open. -/
theorem isOpen_of_canApply_cancelled
    (hCancel : order.canApply .cancelled = true) :
    order.isOpen = true := by
  unfold canApply at hCancel
  unfold isOpen
  cases hState : order.state <;> rw [hState] at hCancel <;>
    first | rfl | cases hCancel

/- An event that is applied joins the history. -/
theorem history_of_apply
    (hApply : order.apply event = .ok next) :
    next.history = order.history ++ [event] := by
  rcases apply_eq_ok_iff.mp hApply with
    ⟨state, totals, _, _, rfl⟩
  rfl

/- An event leaves the terms of the order alone. -/
theorem terms_of_apply
    (hApply : order.apply event = .ok next) :
    next.id = order.id ∧ next.quantity = order.quantity := by
  rcases apply_eq_ok_iff.mp hApply with
    ⟨state, totals, _, _, rfl⟩
  exact ⟨rfl, rfl⟩

theorem totalsAfter_of_fill?_eq_none
    {occurrence : Occurrence}
    (order : Order)
    (hFill : occurrence.fill? = none) :
    order.totalsAfter occurrence =
      .ok (order.filled, order.average) := by
  simp [totalsAfter, hFill]

/- An event with a fill leads to the totals of that fill. -/
theorem totalsAfter_eq_ok_iff
    {occurrence : Occurrence}
    {fill : Fill}
    {totals : Decimal × Option Decimal}
    (order : Order)
    (hFill : occurrence.fill? = some fill) :
    order.totalsAfter occurrence = .ok totals ↔
      order.fillTotals? fill = some totals := by
  unfold totalsAfter
  rw [hFill]
  cases hTotals : order.fillTotals? fill <;> simp [hTotals]

/- A legal event without a fill is always applied. -/
theorem apply_of_fill?_eq_none
    {state : OrderState}
    (hNext : order.state.next? event.kind = some state)
    (hFill : event.occurrence.fill? = none) :
    order.apply event =
      .ok (order.advance event state
        (order.filled, order.average)) := by
  rw [apply_eq_ok_iff]
  exact
    ⟨state, _, hNext,
      totalsAfter_of_fill?_eq_none order hFill, rfl⟩

/- An order whose fill is accountable takes a legal event. -/
theorem exists_apply_eq_ok
    {order : Order}
    {event : OrderEvent}
    {state : OrderState}
    (hNext : order.state.next? event.kind = some state)
    (hFits :
      ∀ fill,
        event.occurrence.fill? = some fill →
          order.fillTotals? fill ≠ none) :
    ∃ next, order.apply event = .ok next := by
  cases hFill : event.occurrence.fill? with
  | none => exact ⟨_, apply_of_fill?_eq_none hNext hFill⟩
  | some fill =>
      rcases Option.ne_none_iff_exists'.mp (hFits fill hFill) with
        ⟨totals, hTotals⟩
      have hAfter :=
        (totalsAfter_eq_ok_iff order hFill).mpr hTotals
      exact
        ⟨_, apply_eq_ok_iff.mpr
          ⟨state, totals, hNext, hAfter, rfl⟩⟩

------------------------------------------------------------
-- Replaying A History
------------------------------------------------------------

/- Apply events one after the other; each of them has to be applied. -/
def replay
    (order : Order)
    (events : List OrderEvent) : Except OrderError Order :=
  events.foldlM apply order

@[simp] theorem replay_nil
    (order : Order) :
    order.replay [] = .ok order :=
  rfl

/- A replay goes on from what the first event made of the order. -/
theorem exists_of_replay_cons
    {events : List OrderEvent}
    (hReplay : order.replay (event :: events) = .ok next) :
    ∃ first,
      order.apply event = .ok first ∧
        first.replay events = .ok next := by
  unfold replay at hReplay ⊢
  rw [List.foldlM_cons] at hReplay
  cases hFirst : order.apply event with
  | error e =>
      rw [hFirst] at hReplay
      cases hReplay
  | ok first =>
      rw [hFirst] at hReplay
      exact ⟨first, rfl, hReplay⟩

/- The last of a number of events comes after all others. -/
theorem replay_append_singleton
    (order : Order)
    (events : List OrderEvent)
    (event : OrderEvent) :
    order.replay (events ++ [event]) =
      (order.replay events).bind fun last =>
        last.apply event := by
  unfold replay
  rw [List.foldlM_append]
  simp only [List.foldlM_cons, List.foldlM_nil, bind_pure]
  rfl

/- An event that is applied to a replayed order prolongs the replay. -/
theorem replay_append_of_apply
    {start : Order}
    {events : List OrderEvent}
    (hReplay : start.replay events = .ok order)
    (hApply : order.apply event = .ok next) :
    start.replay (events ++ [event]) = .ok next := by
  rw [replay_append_singleton, hReplay]
  exact hApply

/- What is replayed joins the history. -/
theorem history_of_replay
    {events : List OrderEvent}
    (hReplay : order.replay events = .ok next) :
    next.history = order.history ++ events := by
  induction events generalizing order with
  | nil =>
      cases hReplay
      simp
  | cons event events ih =>
      rcases exists_of_replay_cons hReplay with
        ⟨first, hFirst, hRest⟩
      rw [ih hRest, history_of_apply hFirst]
      simp

theorem terms_of_replay
    {events : List OrderEvent}
    (hReplay : order.replay events = .ok next) :
    next.id = order.id ∧ next.quantity = order.quantity := by
  induction events generalizing order with
  | nil =>
      cases hReplay
      exact ⟨rfl, rfl⟩
  | cons event events ih =>
      rcases exists_of_replay_cons hReplay with
        ⟨first, hFirst, hRest⟩
      have hTerms := terms_of_apply hFirst
      rw [← hTerms.1, ← hTerms.2]
      exact ih hRest

/- A replayed order stands where the last event has led it. -/
theorem state_of_replay
    {events : List OrderEvent}
    (hReplay :
      order.replay (events ++ [event]) = .ok next) :
    next.state = event.kind.target := by
  rw [replay_append_singleton] at hReplay
  cases hLast : order.replay events with
  | error e =>
      rw [hLast] at hReplay
      cases hReplay
  | ok last =>
      rw [hLast] at hReplay
      exact state_of_apply hReplay

end Order

end OrderDesk
