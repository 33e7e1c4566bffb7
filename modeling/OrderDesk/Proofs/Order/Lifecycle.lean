import Mathlib.Computability.RegularExpressions
import OrderDesk.Proofs.Order.Offers

/-
  This file proves which sequences of events make up the
  life of an order: those whose kinds match one regular
  expression.

  Every state has an expression of its own for what may still
  happen. A legal move takes the derivative of that expression
  to the expression of the next state, and the derivative by
  any other move matches nothing. Words are read by
  derivatives, so the expression of the first state matches
  the words that can be read move by move.

  Key definitions include:
    * `EventKind.lifecycle`
    * `OrderState.future`
    * `Order.FollowsLifecycle`

  Key theorems include:
    * `OrderState.deriv_future_of_row`
    * `OrderState.cons_mem_future_iff`
    * `Order.all_taken_iff`
    * `Order.followsLifecycle_offerAll`
-/

namespace OrderDesk

open RegularExpression (char star)

------------------------------------------------------------
-- The Language Of Lives
------------------------------------------------------------

namespace EventKind

/- Any number of partial fills, and maybe an end to them. -/
def fillings : RegularExpression EventKind :=
  star (char partiallyFilled) * (1 + char filled + char cancelled)

/- The venue has named the order, by acceptance or at rest. -/
def placement : RegularExpression EventKind :=
  char accepted * star (char working) +
    char working * star (char working)

/- An order rests, and then its time is up. -/
def expiry : RegularExpression EventKind :=
  (1 + char accepted) *
    (char working * star (char working) * char expired)

/- What may happen to an order once it was submitted. -/
def answers : RegularExpression EventKind :=
  1 + char cancelled + char rejected * star (char rejected) +
    placement * fillings + expiry

/- What may happen to a new order. -/
def lifecycle : RegularExpression EventKind :=
  1 + char cancelled + char invalid + char denied +
    char submitted * answers

/- An expression that is seen at once to match nothing. -/
def isVoid :
    RegularExpression EventKind → Bool
| .zero => true
| .epsilon => false
| .char _ => false
| .plus P Q => isVoid P && isVoid Q
| .comp P Q => isVoid P || isVoid Q
| .star _ => false

/- An expression that is seen to match nothing matches nothing. -/
theorem matches'_of_isVoid
    {P : RegularExpression EventKind}
    (hVoid : isVoid P = true) :
    P.matches' = 0 := by
  induction P with
  | zero => rfl
  | epsilon => cases hVoid
  | char => cases hVoid
  | plus P Q hP hQ =>
      simp only [isVoid, Bool.and_eq_true] at hVoid
      simp [RegularExpression.matches', hP hVoid.1, hQ hVoid.2]
  | comp P Q hP hQ =>
      simp only [isVoid, Bool.or_eq_true] at hVoid
      rcases hVoid with hVoid | hVoid
      · simp [RegularExpression.matches', hP hVoid]
      · simp [RegularExpression.matches', hQ hVoid]
  | star => cases hVoid

/- A word is read by taking the derivative by its first letter. -/
theorem cons_mem_iff_mem_deriv
    (P : RegularExpression EventKind)
    (kind : EventKind)
    (kinds : List EventKind) :
    kind :: kinds ∈ P.matches' ↔
      kinds ∈ (P.deriv kind).matches' := by
  rw [← RegularExpression.rmatch_iff_matches',
    ← RegularExpression.rmatch_iff_matches']
  rfl

theorem mem_all
    (kind : EventKind) :
    kind ∈ all := by
  cases kind <;> decide

end EventKind

------------------------------------------------------------
-- What May Still Happen
------------------------------------------------------------

namespace OrderState

/- What may still happen to an order in a state. -/
def future :
    OrderState → RegularExpression EventKind
| initialized => EventKind.lifecycle
| submitted => EventKind.answers
| accepted =>
    star (char .working) * EventKind.fillings +
      char .working * star (char .working) * char .expired
| working =>
    star (char .working) * EventKind.fillings +
      star (char .working) * char .expired
| partiallyFilled => EventKind.fillings
| rejected => star (char .rejected)
| filled | cancelled | expired | invalid | denied => 1

/- Nothing ever has to happen to an order. -/
theorem nil_mem_future
    (state : OrderState) :
    [] ∈ state.future.matches' := by
  rw [← RegularExpression.rmatch_iff_matches']
  cases state <;> rfl

theorem mem_all
    (state : OrderState) :
    state ∈ all := by
  cases state <;> decide

/- A legal move leaves what may happen in the next state. -/
theorem deriv_future_of_row :
    ∀ row ∈ transitions,
      (row.state.future.deriv row.trigger).matches' =
        row.next.future.matches' := by
  simp only [transitions, List.forall_mem_cons]
  simp [future, EventKind.lifecycle, EventKind.answers,
    EventKind.placement, EventKind.expiry, EventKind.fillings,
    RegularExpression.deriv,
    RegularExpression.matchEpsilon,
    RegularExpression.matches'_add,
    RegularExpression.matches'_mul,
    RegularExpression.matches'_epsilon]

/- A move that is not legal leaves nothing that may happen. -/
theorem isVoid_deriv_future :
    ∀ state ∈ all, ∀ kind ∈ EventKind.all,
      state.next? kind = none →
        EventKind.isVoid (state.future.deriv kind) = true := by
  decide

/-
  What may happen in a state begins with a legal move, and
  goes on with what may happen in the state it leads to.
-/
theorem cons_mem_future_iff
    (state : OrderState)
    (kind : EventKind)
    (kinds : List EventKind) :
    kind :: kinds ∈ state.future.matches' ↔
      ∃ next,
        state.next? kind = some next ∧
          kinds ∈ next.future.matches' := by
  rw [EventKind.cons_mem_iff_mem_deriv]
  cases hNext : state.next? kind with
  | none =>
      have hVoid :=
        isVoid_deriv_future state state.mem_all kind
          kind.mem_all hNext
      rw [EventKind.matches'_of_isVoid hVoid]
      simp [Language.notMem_zero]
  | some next =>
      rcases TransitionTable.exists_row_of_next? hNext with
        ⟨row, hRow, rfl, rfl, rfl⟩
      rw [deriv_future_of_row row hRow]
      simp

end OrderState

------------------------------------------------------------
-- Lives Of Orders
------------------------------------------------------------

namespace Order

variable {order next : Order} {event : OrderEvent}

/- Some answer says that a fill could not be accounted for. -/
def overflows
    (answers : List (Except OrderError OrderState)) : Prop :=
  ∃ fill, .error (.fillOverflow fill) ∈ answers

/- An event is refused because of its kind or because of its fill. -/
theorem apply_error_cases
    {e : OrderError}
    (hApply : order.apply event = .error e) :
    order.state.next? event.kind = none ∨
      ∃ fill, e = .fillOverflow fill := by
  unfold apply at hApply
  cases hNext : order.state.next? event.kind with
  | none => exact .inl rfl
  | some state =>
      right
      rw [hNext] at hApply
      unfold totalsAfter at hApply
      cases hFill : event.occurrence.fill? with
      | none => simp [hFill, Except.map] at hApply
      | some fill =>
          cases hTotals : order.fillTotals? fill with
          | none =>
              simp only [hFill, hTotals, Except.map,
                Except.error.injEq] at hApply
              exact ⟨fill, hApply.symm⟩
          | some totals =>
              simp [hFill, hTotals, Except.map] at hApply

/-
  Offered events are all taken if and only if their kinds may
  happen in the state of the order and every fill can be
  accounted for. By induction on the events: the first one
  is a legal move to a state where the rest may happen.
-/
theorem all_taken_iff
    (order : Order)
    (events : List OrderEvent) :
    (∀ answer ∈ (order.offerAll events).1, answer.isOk) ↔
      events.map (·.kind) ∈ order.state.future.matches' ∧
        ¬overflows (order.offerAll events).1 := by
  induction events generalizing order with
  | nil =>
      simp [offerAll, overflows, order.state.nil_mem_future]
  | cons event events ih =>
      rw [List.map_cons, OrderState.cons_mem_future_iff]
      cases hApply : order.apply event with
      | ok next =>
          rcases apply_eq_ok_iff.mp hApply with
            ⟨state, totals, hNext, _, hAdvance⟩
          have hState : next.state = state := by
            rw [hAdvance]
            rfl
          rw [offerAll_cons_of_apply events hApply]
          simp only [List.forall_mem_cons, ih next, hNext, hState]
          simp [overflows, Except.isOk, Except.toBool]
      | error e =>
          rw [offerAll_cons_of_apply_error events hApply]
          have hTaken :
              ¬∀ answer ∈
                (.error e :: (order.offerAll events).1 :
                  List (Except OrderError OrderState)),
                answer.isOk := by
            intro hAll
            cases hAll _ List.mem_cons_self
          refine iff_of_false hTaken ?_
          rintro ⟨⟨state, hNext, _⟩, hFits⟩
          rcases apply_error_cases hApply with
            hNone | ⟨fill, rfl⟩
          · rw [hNone] at hNext
            cases hNext
          · exact hFits ⟨fill, List.mem_cons_self⟩

------------------------------------------------------------
-- Fills Come After Placement
------------------------------------------------------------

/- The event says that the venue has the order. -/
def places
    (event : OrderEvent) : Prop :=
  event.kind = .accepted ∨ event.kind = .working

/- A replay can be cut anywhere. -/
theorem exists_of_replay_append
    {earlier later : List OrderEvent}
    (hReplay : order.replay (earlier ++ later) = .ok next) :
    ∃ middle,
      order.replay earlier = .ok middle ∧
        middle.replay later = .ok next := by
  induction earlier generalizing order with
  | nil => exact ⟨order, rfl, hReplay⟩
  | cons event earlier ih =>
      rcases exists_of_replay_cons hReplay with
        ⟨first, hFirst, hRest⟩
      rcases ih hRest with ⟨middle, hEarlier, hLater⟩
      refine ⟨middle, ?_, hLater⟩
      change (order.apply event).bind _ = _
      rw [hFirst]
      exact hEarlier

/- Fills are taken only where fills may happen. -/
theorem fillable_of_next?
    {state next : OrderState}
    {occurrence : Occurrence}
    (hFill : occurrence.fill? ≠ none)
    (hNext : state.next? occurrence.kind = some next) :
    state ∈
      [.accepted, .working, .partiallyFilled] := by
  have hRows :
      ∀ row ∈ OrderState.transitions,
        row.trigger ∈ [.partiallyFilled, .filled] →
          row.state ∈ [.accepted, .working, .partiallyFilled] := by
    decide
  have hKind :
      occurrence.kind ∈
        [EventKind.partiallyFilled, EventKind.filled] := by
    cases occurrence <;> simp_all [Occurrence.fill?, Occurrence.kind]
  rcases TransitionTable.exists_row_of_next? hNext with
    ⟨row, hRow, hState, hTrigger, _⟩
  rw [← hState]
  exact hRows row hRow (hTrigger ▸ hKind)

/-
  An order that may be filled was placed. By induction on
  its history, from the end: the last event either places
  the order or is a partial fill of an order placed before.
-/
theorem exists_places_of_fillable
    {events : List OrderEvent}
    (hReplay : order.replay events = .ok next)
    (hNew : order.state = .initialized)
    (hState :
      next.state ∈ [.accepted, .working, .partiallyFilled]) :
    ∃ past ∈ events, places past := by
  induction events using List.reverseRecOn generalizing next with
  | nil =>
      cases hReplay
      simp [hNew] at hState
  | append_singleton events event ih =>
      have hTarget := state_of_replay hReplay
      rcases exists_of_replay_append hReplay with
        ⟨middle, hMiddle, hLast⟩
      rcases exists_of_replay_cons hLast with ⟨last, hApply, _⟩
      rcases apply_eq_ok_iff.mp hApply with
        ⟨state, totals, hNext, _⟩
      cases hKind : event.kind with
      | accepted => exact ⟨event, by simp, .inl hKind⟩
      | working => exact ⟨event, by simp, .inr hKind⟩
      | partiallyFilled =>
          have hFill : event.occurrence.fill? ≠ none := by
            unfold OrderEvent.kind at hKind
            cases hOccurrence : event.occurrence <;>
              simp_all [Occurrence.kind, Occurrence.fill?]
          rcases ih hMiddle (fillable_of_next? hFill hNext) with
            ⟨past, hPast, hPlaces⟩
          exact ⟨past, List.mem_append_left _ hPast, hPlaces⟩
      | _ =>
          rw [hTarget, hKind] at hState
          simp [EventKind.target] at hState

theorem accounts_of_replay
    {events : List OrderEvent}
    (hReplay : order.replay events = .ok next)
    (hFills : ∀ event ∈ events, event.occurrence.fill? = none) :
    next.filled = order.filled ∧ next.average = order.average := by
  induction events generalizing order with
  | nil =>
      cases hReplay
      exact ⟨rfl, rfl⟩
  | cons event events ih =>
      rcases List.forall_mem_cons.mp hFills with ⟨hFill, hRest⟩
      rcases exists_of_replay_cons hReplay with
        ⟨first, hFirst, hReplay⟩
      rcases apply_eq_ok_iff.mp hFirst with
        ⟨state, totals, _, hTotals, rfl⟩
      rw [totalsAfter_of_fill?_eq_none order hFill] at hTotals
      cases hTotals
      have hAccounts := ih hReplay hRest
      exact hAccounts

------------------------------------------------------------
-- Ends Of Lives
------------------------------------------------------------

/- From a finished order, only a rejection of a rejected one leads on. -/
theorem next?_of_isTerminal
    {state next : OrderState}
    {kind : EventKind}
    (hEnd : state.isTerminal = true)
    (hNext : state.next? kind = some next) :
    state = .rejected ∧ kind = .rejected := by
  have hRows :
      ∀ row ∈ OrderState.transitions,
        row.state.isTerminal = true →
          row.state = .rejected ∧ row.trigger = .rejected := by
    decide
  rcases TransitionTable.exists_row_of_next? hNext with
    ⟨row, hRow, hState, hTrigger, _⟩
  rw [← hState, ← hTrigger]
  exact hRows row hRow (hState ▸ hEnd)

/- A rejected order only notes that it was rejected again. -/
theorem apply_rejected
    (hState : order.state = .rejected)
    (hKind : event.kind = .rejected) :
    order.apply event =
      .ok { order with history := order.history ++ [event] } := by
  rcases event with ⟨id, occurrence⟩
  cases occurrence with
  | rejected reason =>
      have hNext :
          order.state.next? EventKind.rejected =
            some .rejected := by
        rw [hState]
        decide
      rw [apply_of_fill?_eq_none hNext rfl]
      unfold advance
      rw [← hState]
      rfl
  | _ => cases hKind

/-
  Whatever is offered to a finished order, only its history
  may change, and only by rejections of a rejected order.
-/
def StandsStill
    (order : Order)
    (events : List OrderEvent) : Prop :=
  (order.offerAll events).2 =
      { order with history := (order.offerAll events).2.history } ∧
    ∀ pair ∈ events.zip (order.offerAll events).1,
      pair.2.isOk ↔
        order.state = .rejected ∧ pair.1.kind = .rejected

/- A finished order stands still. -/
theorem standsStill_of_isTerminal
    (hEnd : order.state.isTerminal = true)
    (events : List OrderEvent) :
    order.StandsStill events := by
  induction events generalizing order with
  | nil => exact ⟨rfl, by simp⟩
  | cons event events ih =>
      cases hApply : order.apply event with
      | ok next =>
          rcases apply_eq_ok_iff.mp hApply with
            ⟨state, totals, hNext, _⟩
          rcases next?_of_isTerminal hEnd hNext with
            ⟨hState, hKind⟩
          rw [apply_rejected hState hKind] at hApply
          cases hApply
          have hStill :
              { order with
                history :=
                  order.history ++ [event] }.state.isTerminal =
                true :=
            hEnd
          rcases ih hStill with ⟨hLast, hAnswers⟩
          unfold StandsStill
          rw [offerAll_cons_of_apply events
            (apply_rejected hState hKind)]
          refine ⟨hLast, ?_⟩
          rw [List.zip_cons_cons, List.forall_mem_cons]
          refine ⟨?_, hAnswers⟩
          simp [Except.isOk, Except.toBool, hState, hKind]
      | error e =>
          have hNot :
              ¬(order.state = .rejected ∧
                event.kind = .rejected) := by
            rintro ⟨hState, hKind⟩
            rw [apply_rejected hState hKind] at hApply
            cases hApply
          rcases ih hEnd with ⟨hLast, hAnswers⟩
          unfold StandsStill
          rw [offerAll_cons_of_apply_error events hApply]
          refine ⟨hLast, ?_⟩
          rw [List.zip_cons_cons, List.forall_mem_cons]
          refine ⟨?_, hAnswers⟩
          simpa [Except.isOk, Except.toBool] using hNot

------------------------------------------------------------
-- Lives Of New Orders
------------------------------------------------------------

/-
  How an order lives that started new, was offered `events`
  and gave `answers`: which events it takes is a matter of
  their kinds and of what it can account for, no fill is
  booked before the venue has the order, and nothing happens
  to it after its end.
-/
structure FollowsLifecycle
    (events : List OrderEvent)
    (answers : List (Except OrderError OrderState))
    (order : Order) : Prop where
  all_taken :
    (∀ answer ∈ answers, answer.isOk) ↔
      events.map (·.kind) ∈ EventKind.lifecycle.matches' ∧
        ¬overflows answers
  placed_before_fill :
    ∀ earlier event later,
      order.history = earlier ++ event :: later →
        event.occurrence.fill? ≠ none →
          ∃ past ∈ earlier, places past
  unfilled :
    (∀ event ∈ order.history, ¬places event) →
      order.filled = 0 ∧ order.average = none
  standsStill :
    order.state.isTerminal = true →
      ∀ more, order.StandsStill more

/-
  Whatever events are offered to a new order, it follows the
  lifecycle.
-/
theorem followsLifecycle_offerAll
    (command : SubmitOrder)
    (events : List OrderEvent) :
    FollowsLifecycle events
      ((new command).offerAll events).1
      ((new command).offerAll events).2 := by
  have hReplay := replay_history_offerAll command events
  have hPlaced :
      ∀ earlier event later,
        ((new command).offerAll events).2.history =
            earlier ++ event :: later →
          event.occurrence.fill? ≠ none →
            ∃ past ∈ earlier, places past := by
    intro earlier event later hCut hFill
    rw [hCut] at hReplay
    rcases exists_of_replay_append hReplay with
      ⟨middle, hEarlier, hLater⟩
    rcases exists_of_replay_cons hLater with ⟨first, hFirst, _⟩
    rcases apply_eq_ok_iff.mp hFirst with ⟨state, totals, hNext, _⟩
    exact
      exists_places_of_fillable hEarlier rfl
        (fillable_of_next? hFill hNext)
  exact
    { all_taken := all_taken_iff (new command) events
      placed_before_fill := hPlaced
      unfilled := by
        intro hPlaces
        refine accounts_of_replay hReplay fun event hEvent => ?_
        by_contra hFill
        rcases List.append_of_mem hEvent with
          ⟨earlier, later, hCut⟩
        rcases hPlaced earlier event later hCut hFill with
          ⟨past, hPast, hPlace⟩
        refine hPlaces past ?_ hPlace
        rw [hCut]
        exact List.mem_append_left _ hPast
      standsStill := fun hEnd => standsStill_of_isTerminal hEnd }

end Order

end OrderDesk
