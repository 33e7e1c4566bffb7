import OrderDesk.Proofs.Engine.Requests

/-
  This file counts the orders that were submitted: the
  engine files one for each submission that it passes on, and
  files no order twice.

  Key definitions include:
    * `Order.wasSubmitted`
    * `isSubmission`
    * `Blotter.IsIndexed`

  Key theorems include:
    * `Blotter.lookup_of_mem`
    * `Engine.Reaction.isIndexed`
    * `Engine.Reaction.countP_wasSubmitted`
-/

namespace OrderDesk

/- The history of an order starts with its submission to the venue. -/
def Order.wasSubmitted
    (order : Order) : Bool :=
  order.history.head?.map OrderEvent.kind = some .submitted

/- A message asks for an order. -/
def isSubmission
    (envelope : Envelope TradingMessage) : Bool :=
  match envelope.payload with
  | .submitOrder _ => true
  | _ => false

------------------------------------------------------------
-- Blotters
------------------------------------------------------------

namespace Blotter

variable {id : OrderId} {order old : Order} {blotter : Blotter}

/- There is one entry under each identifier. -/
def IsIndexed
    (blotter : Blotter) : Prop :=
  (blotter.entries.map Prod.fst).Nodup

/- An order under a new identifier comes after all others. -/
theorem putInto_of_lookup_eq_none
    {entries : List (OrderId × Order)}
    (hNew : entries.lookup id = none) :
    putInto id order entries = entries ++ [(id, order)] := by
  induction entries with
  | nil => rfl
  | cons entry rest ih =>
      rcases entry with ⟨key, filed⟩
      by_cases hKey : id = key
      · simp [hKey] at hNew
      · have hTest := beq_eq_false_iff_ne.mpr hKey
        simp only [List.lookup_cons, hTest] at hNew
        unfold putInto
        rw [if_neg (Ne.symm hKey), ih hNew]
        rfl

/- An order under a known identifier takes the place of the old one. -/
theorem exists_putInto_of_lookup_eq_some
    {entries : List (OrderId × Order)}
    (hOld : entries.lookup id = some old) :
    ∃ earlier later,
      entries = earlier ++ (id, old) :: later ∧
        putInto id order entries =
          earlier ++ (id, order) :: later := by
  induction entries with
  | nil => cases hOld
  | cons entry rest ih =>
      rcases entry with ⟨key, filed⟩
      by_cases hKey : id = key
      · subst hKey
        simp only [List.lookup_cons, beq_self_eq_true,
          Option.some.injEq] at hOld
        subst hOld
        exact ⟨[], rest, rfl, by simp [putInto]⟩
      · have hTest := beq_eq_false_iff_ne.mpr hKey
        simp only [List.lookup_cons, hTest] at hOld
        rcases ih hOld with ⟨earlier, later, hRest, hPut⟩
        refine ⟨(key, filed) :: earlier, later, by simp [hRest], ?_⟩
        unfold putInto
        rw [if_neg (Ne.symm hKey), hPut]
        rfl

/- An entry is found under its identifier. -/
theorem lookup_of_mem
    {entries : List (OrderId × Order)}
    (hIndexed : (entries.map Prod.fst).Nodup)
    (hMem : (id, order) ∈ entries) :
    entries.lookup id = some order := by
  induction entries with
  | nil => cases hMem
  | cons entry rest ih =>
      rcases entry with ⟨key, filed⟩
      rw [List.map_cons, List.nodup_cons] at hIndexed
      rcases List.mem_cons.mp hMem with hFirst | hRest
      · cases hFirst
        exact List.lookup_cons_self
      · have hKey : id ≠ key := by
          rintro rfl
          exact hIndexed.1 (List.mem_map.mpr ⟨_, hRest, rfl⟩)
        have hTest := beq_eq_false_iff_ne.mpr hKey
        simp only [List.lookup_cons, hTest]
        exact ih hIndexed.2 hRest

theorem notMem_of_find?_eq_none
    (hNew : blotter.find? id = none) :
    id ∉ blotter.entries.map Prod.fst := by
  unfold find? at hNew
  rw [List.lookup_eq_none_iff] at hNew
  intro hMem
  rcases List.mem_map.mp hMem with ⟨entry, hEntry, rfl⟩
  simpa using hNew entry hEntry

theorem IsIndexed.put
    (hIndexed : blotter.IsIndexed) :
    (blotter.put id order).IsIndexed := by
  unfold IsIndexed Blotter.put at *
  cases hFound : blotter.entries.lookup id with
  | none =>
      rw [putInto_of_lookup_eq_none hFound, List.map_append,
        List.nodup_append]
      refine ⟨hIndexed, by simp, ?_⟩
      intro key hKey other hOther
      have hNone := @notMem_of_find?_eq_none id blotter hFound
      rintro rfl
      simp only [List.map_cons, List.map_nil,
        List.mem_singleton] at hOther
      exact hNone (hOther ▸ hKey)
  | some old =>
      rcases @exists_putInto_of_lookup_eq_some id order old _
          hFound with
        ⟨earlier, later, hEntries, hPut⟩
      rw [hPut]
      rw [hEntries] at hIndexed
      simpa using hIndexed

theorem countP_put_of_find?_eq_none
    (p : Order → Bool)
    (hNew : blotter.find? id = none) :
    (blotter.put id order).orders.countP p =
      blotter.orders.countP p + [order].countP p := by
  unfold Blotter.put orders
  rw [putInto_of_lookup_eq_none hNew, List.map_append,
    List.countP_append]
  rfl

theorem countP_put_of_find?_eq_some
    (p : Order → Bool)
    (hOld : blotter.find? id = some old)
    (hLike : p order = p old) :
    (blotter.put id order).orders.countP p =
      blotter.orders.countP p := by
  rcases @exists_putInto_of_lookup_eq_some id order old _ hOld with
    ⟨earlier, later, hEntries, hPut⟩
  unfold Blotter.put orders
  rw [hPut, hEntries]
  simp [List.countP_cons, hLike]

end Blotter

------------------------------------------------------------
-- Submissions That Are Passed On
------------------------------------------------------------

namespace Engine

variable {stamp : Stamp} {engine : Engine}
variable {envelope : Envelope TradingMessage}
variable {step : EngineStep}

/- The engine files no order twice. -/
theorem Reaction.isIndexed
    (hReaction : Reaction stamp engine envelope step)
    (hIndexed : engine.blotter.IsIndexed) :
    step.engine.blotter.IsIndexed := by
  cases hReaction with
  | opened command => exact hIndexed.put
  | reportApplied event order next => exact hIndexed.put
  | _ => exact hIndexed

/- A new order was submitted if nothing spoke against it. -/
theorem wasSubmitted_opened
    (engine : Engine)
    (command : SubmitOrder) :
    (engine.opened command).wasSubmitted =
      decide ((engine.admission command).1 = .submitted) := by
  have hHistory :
      (engine.opened command).history =
        [⟨command.orderId, (engine.admission command).1⟩] :=
    rfl
  unfold Order.wasSubmitted
  rw [hHistory]
  rcases engine.admission_cases command with
    ⟨hAdmitted, _⟩ | ⟨reason, hRefused | hRefused⟩
  · rw [hAdmitted]
    rfl
  · rw [hRefused]
    rfl
  · rw [hRefused]
    rfl

/- The engine files a submitted order for each submission it passes on. -/
theorem Reaction.countP_wasSubmitted
    (hReaction : Reaction stamp engine envelope step)
    (hBegun :
      ∀ id order,
        engine.blotter.find? id = some order →
          order.history ≠ []) :
    step.engine.blotter.orders.countP Order.wasSubmitted =
      engine.blotter.orders.countP Order.wasSubmitted +
        step.commands.countP isSubmission := by
  cases hReaction with
  | opened command hPayload hNew =>
      unfold withOrder
      dsimp only
      rw [Blotter.countP_put_of_find?_eq_none _ hNew]
      congr 1
      have hOpened := engine.wasSubmitted_opened command
      by_cases hAdmitted :
          (engine.admission command).1 = .submitted
      · rw [decide_eq_true hAdmitted] at hOpened
        rw [if_pos hAdmitted]
        simp [hOpened, isSubmission]
      · rw [decide_eq_false hAdmitted] at hOpened
        rw [if_neg hAdmitted]
        simp [hOpened]
  | reportApplied event order next hPayload hOrder hApply =>
      have hLike : next.wasSubmitted = order.wasSubmitted := by
        have hHistory := Order.history_of_apply hApply
        have hOld := hBegun _ _ hOrder
        unfold Order.wasSubmitted
        rw [hHistory, List.head?_append,
          List.head?_eq_some_head hOld, Option.some_or]
      exact Blotter.countP_put_of_find?_eq_some _ hOrder hLike
  | cancelForwarded cancel hPayload =>
      simp [isSubmission]
  | _ => rfl

end Engine

end OrderDesk
