import OrderDesk.Proofs.Order.Replay

/-
  This file defines how an order changes in place when an
  event is offered to it, and proves that an order is its
  own record: its history holds the events that were taken,
  and nothing is left of those that were refused.

  An offer goes step by step. It looks the move up, computes
  the accounts, makes the move, and then writes one field
  after the other. What is written before a step that fails
  stays written.

  Key definitions include:
    * `Order.offer`
    * `Order.offerAll`
    * `Order.KeepsRecord`

  Key theorems include:
    * `Order.offer_eq`
    * `Order.replay_taken_offerAll`
    * `Order.offerAll_of_replay`
    * `Order.keepsRecord_offerAll`
-/

namespace OrderDesk

namespace Order

------------------------------------------------------------
-- Changes In Place
------------------------------------------------------------

/- The machine that drives an order. -/
def machine
    (order : Order) : StateMachine OrderState EventKind :=
  ⟨OrderState.transitions, order.state, by decide⟩

/- The new accounts of an order, if the occurrence changes them. -/
def newTotals
    (order : Order)
    (occurrence : Occurrence) :
    Except OrderError (Option (Decimal × Option Decimal)) :=
  match occurrence.fill? with
  | none => .ok none
  | some fill =>
      match order.fillTotals? fill with
      | none => .error (.fillOverflow fill)
      | some totals => .ok (some totals)

/- Write down what an occurrence says besides its fill. -/
def note
    (order : Order) :
    Occurrence → Order
| .accepted venueOrderId =>
    { order with venueOrderId := some venueOrderId }
| .working venueOrderId none =>
    { order with venueOrderId := some venueOrderId }
| .working venueOrderId (some price) =>
    { order with
      venueOrderId := some venueOrderId
      price := some price }
| _ => order

/- Write down new accounts, if there are any. -/
def book
    (order : Order) :
    Option (Decimal × Option Decimal) → Order
| none => order
| some totals =>
    { order with filled := totals.1, average := totals.2 }

/-
  Offer an event to an order. The answer is the state that
  it leads to, or why it is refused; the order is left as it
  is by then.
-/
def offer
    (order : Order)
    (event : OrderEvent) :
    Except OrderError OrderState × Order :=
  if order.machine.canProcess event.kind then
    match order.newTotals event.occurrence with
    | .error e => (.error e, order)
    | .ok totals? =>
        match order.machine.process event.kind with
        | .error refused => (.error (.transition refused), order)
        | .ok machine =>
            let order := { order with state := machine.state }
            let order := order.note event.occurrence
            let order := order.book totals?
            (.ok machine.state,
              { order with history := order.history ++ [event] })
  else
    (.error (.transition ⟨order.state, event.kind⟩), order)

/-
  Offer events to an order, one after the other, whatever
  the answers are.
-/
def offerAll :
    Order → List OrderEvent →
      List (Except OrderError OrderState) × Order
| order, [] => ([], order)
| order, event :: rest =>
    let (answer, next) := order.offer event
    let (answers, last) := next.offerAll rest
    (answer :: answers, last)

variable {order next : Order} {event : OrderEvent}

/- An order that is written to field by field has advanced. -/
theorem book_note_eq_advance
    {totals? : Option (Decimal × Option Decimal)}
    {totals : Decimal × Option Decimal}
    (state : OrderState)
    (hNew : order.newTotals event.occurrence = .ok totals?)
    (hAfter : order.totalsAfter event.occurrence = .ok totals) :
    let changed :=
      ({ order with state := state }.note event.occurrence).book
        totals?
    { changed with history := changed.history ++ [event] } =
      order.advance event state totals := by
  rcases event with ⟨id, occurrence⟩
  have hFill :
      ∀ fill,
        occurrence.fill? = some fill → totals? = some totals := by
    intro fill hFill
    unfold newTotals at hNew
    unfold totalsAfter at hAfter
    simp only [hFill] at hNew hAfter
    cases hTotals : order.fillTotals? fill with
    | none =>
        rw [hTotals] at hNew
        cases hNew
    | some changed =>
        rw [hTotals] at hNew hAfter
        cases hNew
        cases hAfter
        rfl
  cases occurrence with
  | partiallyFilled fill =>
      rw [hFill fill rfl]
      rfl
  | filled fill =>
      rw [hFill fill rfl]
      rfl
  | working venueOrderId price =>
      cases hNew
      cases hAfter
      cases price <;> rfl
  | _ =>
      cases hNew
      cases hAfter
      rfl

/- The accounts are written down exactly if they can be kept. -/
theorem newTotals_eq
    (order : Order)
    (occurrence : Occurrence) :
    (∃ totals? totals,
      order.newTotals occurrence = .ok totals? ∧
        order.totalsAfter occurrence = .ok totals) ∨
    (∃ e,
      order.newTotals occurrence = .error e ∧
        order.totalsAfter occurrence = .error e) := by
  unfold newTotals totalsAfter
  cases occurrence.fill? with
  | none => exact .inl ⟨_, _, rfl, rfl⟩
  | some fill =>
      cases hTotals : order.fillTotals? fill with
      | none =>
          simp only [hTotals]
          exact .inr ⟨_, rfl, rfl⟩
      | some totals =>
          simp only [hTotals]
          exact .inl ⟨_, _, rfl, rfl⟩

/-
  An offer changes an order as a whole or not at all: either
  the event is applied, or the order stays as it was.
-/
theorem offer_eq
    (order : Order)
    (event : OrderEvent) :
    order.offer event =
      match order.apply event with
      | .ok next => (.ok next.state, next)
      | .error e => (.error e, order) := by
  have hCan :
      order.machine.canProcess event.kind =
        (order.state.next? event.kind).isSome :=
    rfl
  unfold offer apply
  rw [hCan]
  cases hNext : order.state.next? event.kind with
  | none => rfl
  | some state =>
      -- The step that moves the machine cannot fail any more.
      have hProcess :
          order.machine.process event.kind =
            .ok { order.machine with state := state } := by
        have hTable :
            order.machine.table.next? order.machine.state
                event.kind =
              some state :=
          hNext
        unfold StateMachine.process
        rw [hTable]
      rcases order.newTotals_eq event.occurrence with
        ⟨totals?, totals, hNew, hAfter⟩ | ⟨e, hNew, hAfter⟩
      · have hBook := book_note_eq_advance state hNew hAfter
        simp only [Option.isSome_some, if_true, hNew, hProcess,
          hAfter, Except.map]
        exact congrArg (fun next => (Except.ok state, next)) hBook
      · simp only [Option.isSome_some, if_true, hNew, hAfter,
          Except.map]

theorem offer_of_apply
    (hApply : order.apply event = .ok next) :
    order.offer event = (.ok next.state, next) := by
  rw [offer_eq, hApply]

/- An event that cannot be applied leaves no trace. -/
theorem offer_of_apply_error
    {e : OrderError}
    (hApply : order.apply event = .error e) :
    order.offer event = (.error e, order) := by
  rw [offer_eq, hApply]

theorem offerAll_cons_of_apply
    (events : List OrderEvent)
    (hApply : order.apply event = .ok next) :
    order.offerAll (event :: events) =
      (.ok next.state :: (next.offerAll events).1,
        (next.offerAll events).2) := by
  rw [offerAll, offer_of_apply hApply]

/- The rest meets the order that was there before a refusal. -/
theorem offerAll_cons_of_apply_error
    {e : OrderError}
    (events : List OrderEvent)
    (hApply : order.apply event = .error e) :
    order.offerAll (event :: events) =
      (.error e :: (order.offerAll events).1,
        (order.offerAll events).2) := by
  rw [offerAll, offer_of_apply_error hApply]

------------------------------------------------------------
-- Offers And Replays
------------------------------------------------------------

/- The events that were taken, given the answers to all. -/
def taken
    (events : List OrderEvent)
    (answers : List (Except OrderError OrderState)) :
    List OrderEvent :=
  ((events.zip answers).filter (·.2.isOk)).map (·.1)

theorem length_offerAll
    (order : Order)
    (events : List OrderEvent) :
    (order.offerAll events).1.length = events.length := by
  induction events generalizing order with
  | nil => rfl
  | cons event events ih =>
      cases hApply : order.apply event with
      | ok next =>
          rw [offerAll_cons_of_apply events hApply]
          simp [ih]
      | error e =>
          rw [offerAll_cons_of_apply_error events hApply]
          simp [ih]

/- An order is what a replay of the taken events makes of it. -/
theorem replay_taken_offerAll
    (order : Order)
    (events : List OrderEvent) :
    order.replay (taken events (order.offerAll events).1) =
      .ok (order.offerAll events).2 := by
  induction events generalizing order with
  | nil => rfl
  | cons event events ih =>
      cases hApply : order.apply event with
      | ok next =>
          rw [offerAll_cons_of_apply events hApply]
          change (order.apply event).bind _ = _
          rw [hApply]
          exact ih next
      | error e =>
          rw [offerAll_cons_of_apply_error events hApply]
          exact ih order

/- The history of an order that started new holds what was taken. -/
theorem history_offerAll
    (command : SubmitOrder)
    (events : List OrderEvent) :
    ((new command).offerAll events).2.history =
      taken events ((new command).offerAll events).1 := by
  have hReplay := replay_taken_offerAll (new command) events
  have hNil : (new command).history = [] := rfl
  rw [history_of_replay hReplay, hNil, List.nil_append]

/- An order that started new is what its history makes of it. -/
theorem replay_history_offerAll
    (command : SubmitOrder)
    (events : List OrderEvent) :
    (new command).replay
        ((new command).offerAll events).2.history =
      .ok ((new command).offerAll events).2 := by
  rw [history_offerAll]
  exact replay_taken_offerAll (new command) events

/- Events that can be replayed are all taken when offered. -/
theorem offerAll_of_replay
    {events : List OrderEvent}
    (hReplay : order.replay events = .ok next) :
    (∀ answer ∈ (order.offerAll events).1, answer.isOk) ∧
      (order.offerAll events).2 = next := by
  induction events generalizing order with
  | nil =>
      cases hReplay
      exact ⟨fun _ hAnswer => absurd hAnswer List.not_mem_nil, rfl⟩
  | cons event events ih =>
      rcases exists_of_replay_cons hReplay with
        ⟨first, hFirst, hRest⟩
      rcases ih hRest with ⟨hAnswers, hLast⟩
      rw [offerAll_cons_of_apply events hFirst]
      exact ⟨List.forall_mem_cons.mpr ⟨rfl, hAnswers⟩, hLast⟩

/-
  What the history of an order that started with `command`
  and was offered `events` has to say: it holds the events
  that were taken, and it is enough to get the order back.
-/
structure KeepsRecord
    (command : SubmitOrder)
    (events : List OrderEvent)
    (answers : List (Except OrderError OrderState))
    (order : Order) : Prop where
  answered : answers.length = events.length
  history_eq : order.history = taken events answers
  all_taken :
    ∀ answer ∈ ((new command).offerAll order.history).1,
      answer.isOk
  offerAll_history :
    ((new command).offerAll order.history).2 = order

/-
  Whatever events are offered to a new order, legal or not,
  accountable or not, its history is its own record.
-/
theorem keepsRecord_offerAll
    (command : SubmitOrder)
    (events : List OrderEvent) :
    KeepsRecord command events
      ((new command).offerAll events).1
      ((new command).offerAll events).2 := by
  rcases offerAll_of_replay (replay_history_offerAll command events)
    with ⟨hAnswers, hLast⟩
  exact
    { answered := length_offerAll _ _
      history_eq := history_offerAll command events
      all_taken := hAnswers
      offerAll_history := hLast }

end Order

end OrderDesk
