import OrderDesk.Order.Basic

/-
  This file defines the blotter: every order that the desk
  has seen, each filed under an identifier, in the order in
  which they came. There is one order under each identifier.

  Key definitions include:
    * `Blotter`
    * `Blotter.find?`
    * `Blotter.put`
-/

namespace OrderDesk

/- The orders that the desk has seen, with their identifiers. -/
structure Blotter where
  entries : List (OrderId × Order)
deriving DecidableEq

namespace Blotter

/- No orders. -/
def empty : Blotter :=
  ⟨[]⟩

/- The orders, oldest first. -/
def orders
    (blotter : Blotter) : List Order :=
  blotter.entries.map (·.2)

/- The order under the given identifier, if there is one. -/
def find?
    (id : OrderId)
    (blotter : Blotter) : Option Order :=
  blotter.entries.lookup id

/- File an order in a list, in the place of the one under its identifier. -/
def putInto
    (id : OrderId)
    (order : Order) :
    List (OrderId × Order) → List (OrderId × Order)
| [] => [(id, order)]
| entry :: rest =>
    if entry.1 = id then
      (id, order) :: rest
    else
      entry :: putInto id order rest

/- File an order in the place of the one under its identifier. -/
def put
    (id : OrderId)
    (order : Order)
    (blotter : Blotter) : Blotter :=
  ⟨putInto id order blotter.entries⟩

/- The orders that have not reached a terminal state. -/
def openOrders
    (blotter : Blotter) : List Order :=
  blotter.orders.filter (·.isOpen)

@[simp] theorem find?_empty
    (id : OrderId) :
    empty.find? id = none :=
  rfl

/- Filing an order changes what is found under its identifier only. -/
theorem lookup_putInto
    (id other : OrderId)
    (order : Order)
    (entries : List (OrderId × Order)) :
    (putInto id order entries).lookup other =
      if other = id then some order else entries.lookup other := by
  induction entries with
  | nil =>
      by_cases hOther : other = id
      · simp [putInto, hOther]
      · have hTest := beq_eq_false_iff_ne.mpr hOther
        simp [putInto, List.lookup_cons, hOther, hTest]
  | cons entry rest ih =>
      rcases entry with ⟨key, filed⟩
      unfold putInto
      by_cases hKey : key = id
      · subst hKey
        by_cases hOther : other = key
        · simp [hOther]
        · have hTest := beq_eq_false_iff_ne.mpr hOther
          simp [List.lookup_cons, hOther, hTest]
      · rw [if_neg hKey]
        by_cases hOther : other = key
        · simp [hOther, hKey]
        · have hTest := beq_eq_false_iff_ne.mpr hOther
          simp only [List.lookup_cons, hTest, ih]

@[simp] theorem find?_put_self
    (id : OrderId)
    (order : Order)
    (blotter : Blotter) :
    (blotter.put id order).find? id = some order := by
  unfold find? put
  rw [lookup_putInto, if_pos rfl]

/- Filing an order leaves the orders under other identifiers alone. -/
theorem find?_put_of_ne
    {id other : OrderId}
    (order : Order)
    (blotter : Blotter)
    (hOther : other ≠ id) :
    (blotter.put id order).find? other = blotter.find? other := by
  unfold find? put
  rw [lookup_putInto, if_neg hOther]

end Blotter

end OrderDesk
