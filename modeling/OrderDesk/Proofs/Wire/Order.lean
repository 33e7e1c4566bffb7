import OrderDesk.Proofs.Wire.Decimal
import OrderDesk.Proofs.Wire.Header

/-
  This file proves what is read back of the messages about
  orders from their text: the message itself with each of
  its decimals replaced by what is read back of it alone.
  So a message survives if and only if its decimals do.

  Key definitions include:
    * `Decimal.carried?`
    * `Occurrence.carried?`
    * `SubmitOrder.SameValue`
    * `OrderEvent.SameValue`

  Key theorems include:
    * `SubmitOrder.ofJson?_toJson`
    * `OrderEvent.ofJson?_toJson`
    * `Wire.messages_survive`
-/

namespace OrderDesk

open Json (text record)

------------------------------------------------------------
-- Names And Identifiers
------------------------------------------------------------

/- An order identifier is read back. -/
theorem OrderId.ofJson?_toJson
    (id : OrderId) :
    ofJson? id.toJson = some id := by
  unfold ofJson? toJson
  rw [Uuid.ofJson?_toJson]
  rfl

/- A symbol is read back. -/
theorem Symbol.ofJson?_toJson
    (symbol : Symbol) :
    ofJson? symbol.toJson = some symbol :=
  rfl

/- A side is read back. -/
theorem Side.ofJson?_toJson
    (side : Side) :
    ofJson? side.toJson = some side := by
  cases side <;> decide

/- An order type is read back. -/
theorem OrderType.ofJson?_toJson
    (orderType : OrderType) :
    ofJson? orderType.toJson = some orderType := by
  cases orderType <;> decide

/- A state is read back. -/
theorem OrderState.ofJson?_toJson
    (state : OrderState) :
    ofJson? state.toJson = some state := by
  cases state <;> decide

theorem OrderState.toJson_ne_null
    (state : OrderState) :
    state.toJson ≠ Json.null :=
  Json.text_ne_null state.wireName

/- A kind of events is read back. -/
theorem EventKind.ofJson?_toJson
    (kind : EventKind) :
    ofJson? kind.toJson = some kind := by
  cases kind <;> decide

------------------------------------------------------------
-- What Is Put Together Of Parts
------------------------------------------------------------

/- A result is found if the part that it is made of is. -/
theorem exists_map_iff
    {α β : Type}
    {part : Option α}
    {make : α → β}
    {P : β → Prop} :
    (∃ b, part.map make = some b ∧ P b) ↔
      ∃ a, part = some a ∧ P (make a) := by
  cases part <;> simp

theorem exists_bind_map_iff
    {α β γ : Type}
    {first : Option α}
    {second : Option β}
    {make : α → β → γ}
    {P : γ → Prop}
    {Q : α → Prop}
    {R : β → Prop}
    (hSplit : ∀ a b, P (make a b) ↔ Q a ∧ R b) :
    (∃ c, (first.bind fun a => second.map (make a)) = some c ∧
        P c) ↔
      (∃ a, first = some a ∧ Q a) ∧ ∃ b, second = some b ∧ R b := by
  cases first with
  | none => simp
  | some a =>
      rw [Option.bind_some, exists_map_iff]
      cases second <;> simp [hSplit]

------------------------------------------------------------
-- Decimals
------------------------------------------------------------

namespace Decimal

/- What is read back of a decimal. -/
def carried?
    (a : Decimal) : Option Decimal :=
  ofJson? a.toJson

theorem survives_iff
    (a : Decimal) :
    a.Survives ↔ ∃ b, a.carried? = some b ∧ b.SameValue a :=
  Wire.survives_iff a.isProper_toJson

theorem isStrict_toJson
    {a b : Decimal}
    (hCarried : a.carried? = some b) :
    a.toJson.isStrict = true := by
  unfold carried? toJson ofJson? at hCarried
  rw [Option.bind_eq_some_iff] at hCarried
  rcases hCarried with ⟨n, hNumber, -⟩
  unfold toJson Json.isStrict
  rw [hNumber]
  rfl

theorem isStrict_nullable
    {price carried : Option Decimal}
    (hCarried : price.mapM carried? = some carried) :
    (Json.nullable toJson price).isStrict = true := by
  cases price with
  | none => rfl
  | some a =>
      change a.carried?.map some = some carried at hCarried
      rw [Option.map_eq_some_iff] at hCarried
      rcases hCarried with ⟨b, hB, -⟩
      exact isStrict_toJson hB

theorem optional?_toJson
    (price : Option Decimal) :
    Json.optional? ofJson? (some (Json.nullable toJson price)) =
      price.mapM carried? := by
  rw [Json.optional?_nullable toJson_ne_null]
  cases price <;> rfl

/- A price that may be missing survives if it is missing. -/
theorem optional_survives_iff
    (price : Option Decimal) :
    (∃ carried,
        price.mapM carried? = some carried ∧
          Option.Rel SameValue carried price) ↔
      ∀ a ∈ price, a.Survives := by
  cases price with
  | none =>
      constructor
      · rintro _ _ ⟨⟩
      · exact fun _ => ⟨none, rfl, .none⟩
  | some a =>
      change
        (∃ carried, a.carried?.map some = some carried ∧ _) ↔ _
      rw [exists_map_iff]
      constructor
      · rintro ⟨b, hCarried, hSame⟩ _ ⟨⟩
        cases hSame with
        | some hSame => exact (survives_iff a).mpr ⟨b, hCarried, hSame⟩
      · intro hSurvives
        rcases (survives_iff a).mp (hSurvives a rfl) with
          ⟨b, hCarried, hSame⟩
        exact ⟨b, hCarried, .some hSame⟩

end Decimal

------------------------------------------------------------
-- Submissions
------------------------------------------------------------

namespace SubmitOrder

/- The decimals of a submission. -/
def decimals
    (order : SubmitOrder) : List Decimal :=
  order.quantity :: order.price.toList

/- The submissions are the same, decimals compared by value. -/
structure SameValue
    (a b : SubmitOrder) : Prop where
  orderId : a.orderId = b.orderId
  symbol : a.symbol = b.symbol
  side : a.side = b.side
  orderType : a.orderType = b.orderType
  quantity : a.quantity.SameValue b.quantity
  price : Option.Rel Decimal.SameValue a.price b.price

theorem isProper_toJson
    (order : SubmitOrder) :
    order.toJson.IsProper := by
  refine Json.isProper_record fun member hMem => ?_
  simp only [List.mem_cons, List.not_mem_nil, or_false] at hMem
  rcases hMem with rfl | rfl | rfl | rfl | rfl | rfl
  · exact Json.isProper_text _
  · exact Json.isProper_text _
  · exact Json.isProper_text _
  · exact Json.isProper_text _
  · exact order.quantity.isProper_toJson
  · exact Json.isProper_nullable Decimal.isProper_toJson _

/- A submission is read back with its decimals as carried. -/
theorem ofJson?_toJson
    (order : SubmitOrder) :
    ofJson? order.toJson =
      order.quantity.carried?.bind fun quantity =>
        (order.price.mapM Decimal.carried?).map fun price =>
          { order with quantity := quantity, price := price } := by
  have hFields :
      order.toJson.fields? fieldNames =
        some
          [some order.orderId.toJson, some order.symbol.toJson,
            some order.side.toJson, some order.orderType.toJson,
            some order.quantity.toJson,
            some (Json.nullable Decimal.toJson order.price)] :=
    Json.fields?_record
      [("order_id", order.orderId.toJson),
        ("symbol", order.symbol.toJson),
        ("side", order.side.toJson),
        ("order_type", order.orderType.toJson),
        ("quantity", order.quantity.toJson),
        ("price", Json.nullable Decimal.toJson order.price)]
      (show fieldNames.Nodup by decide)
  unfold ofJson?
  rw [hFields]
  simp only [Option.bind_some, OrderId.ofJson?_toJson,
    Symbol.ofJson?_toJson, Side.ofJson?_toJson,
    OrderType.ofJson?_toJson, Decimal.optional?_toJson,
    Option.bind_eq_bind, Option.pure_def]
  change order.quantity.carried?.bind _ = _
  cases order.quantity.carried? with
  | none => rfl
  | some quantity => cases order.price.mapM Decimal.carried? <;> rfl

/- A submission survives if its decimals do. -/
theorem survives_iff
    (order : SubmitOrder) :
    Wire.Survives toJson ofJson? SameValue order ↔
      ∀ a ∈ order.decimals, a.Survives := by
  rw [Wire.survives_iff order.isProper_toJson, ofJson?_toJson,
    exists_bind_map_iff
      (Q := fun quantity => quantity.SameValue order.quantity)
      (R := fun price =>
        Option.Rel Decimal.SameValue price order.price)]
  · rw [← Decimal.survives_iff, Decimal.optional_survives_iff]
    unfold decimals
    rw [List.forall_mem_cons]
    simp only [Option.mem_toList, Option.mem_def]
  · intro quantity price
    constructor
    · exact fun hSame => ⟨hSame.quantity, hSame.price⟩
    · rintro ⟨hQuantity, hPrice⟩
      exact ⟨rfl, rfl, rfl, rfl, hQuantity, hPrice⟩

end SubmitOrder

------------------------------------------------------------
-- Fills
------------------------------------------------------------

namespace Fill

/- The decimals of a fill. -/
def decimals
    (fill : Fill) : List Decimal :=
  [fill.quantity, fill.price]

/- The fills are the same, decimals compared by value. -/
structure SameValue
    (a b : Fill) : Prop where
  quantity : a.quantity.SameValue b.quantity
  price : a.price.SameValue b.price

/- A fill with its decimals as carried. -/
def carried?
    (fill : Fill) : Option Fill :=
  fill.quantity.carried?.bind fun quantity =>
    fill.price.carried?.map (Fill.mk quantity)

theorem isProper_toJson
    (fill : Fill) :
    fill.toJson.IsProper := by
  refine Json.isProper_record fun member hMem => ?_
  simp only [List.mem_cons, List.not_mem_nil, or_false] at hMem
  rcases hMem with rfl | rfl
  · exact fill.quantity.isProper_toJson
  · exact fill.price.isProper_toJson

/- A fill is read back with its decimals as carried. -/
theorem ofJson?_toJson
    (fill : Fill) :
    ofJson? fill.toJson = fill.carried? := by
  have hFields :
      fill.toJson.fields? fieldNames =
        some
          [some fill.quantity.toJson, some fill.price.toJson] :=
    Json.fields?_record
      [("quantity", fill.quantity.toJson),
        ("price", fill.price.toJson)]
      (show fieldNames.Nodup by decide)
  unfold ofJson?
  rw [hFields]
  change (fill.quantity.carried?.bind fun _ =>
    fill.price.carried?.bind _) = _
  unfold carried?
  cases fill.quantity.carried? with
  | none => rfl
  | some quantity => cases fill.price.carried? <;> rfl

/- A fill is carried to its value if its decimals survive. -/
theorem exists_carried?_iff
    (fill : Fill) :
    (∃ carried, fill.carried? = some carried ∧
        carried.SameValue fill) ↔
      ∀ a ∈ fill.decimals, a.Survives := by
  unfold carried?
  rw [exists_bind_map_iff
    (Q := fun quantity => quantity.SameValue fill.quantity)
    (R := fun price => price.SameValue fill.price)]
  · rw [← Decimal.survives_iff, ← Decimal.survives_iff]
    simp [decimals]
  · intro quantity price
    constructor
    · exact fun hSame => ⟨hSame.quantity, hSame.price⟩
    · exact fun hSame => ⟨hSame.1, hSame.2⟩

theorem isStrict_toJson
    {fill carried : Fill}
    (hCarried : fill.carried? = some carried) :
    fill.toJson.isStrict = true := by
  unfold carried? at hCarried
  simp only [Option.bind_eq_some_iff, Option.map_eq_some_iff]
    at hCarried
  rcases hCarried with ⟨quantity, hQuantity, price, hPrice, -⟩
  have hStrict := Decimal.isStrict_toJson hQuantity
  have hStrict' := Decimal.isStrict_toJson hPrice
  simp [toJson, record, Json.isStrict, Json.membersStrict, hStrict,
    hStrict']

end Fill

------------------------------------------------------------
-- Occurrences
------------------------------------------------------------

namespace Occurrence

/- The decimals of an occurrence. -/
def decimals :
    Occurrence → List Decimal
| working _ price => price.toList
| partiallyFilled fill => fill.decimals
| filled fill => fill.decimals
| _ => []

/- The occurrences are the same, decimals compared by value. -/
def SameValue :
    Occurrence → Occurrence → Prop
| working venueOrderId price, working venueOrderId' price' =>
    venueOrderId = venueOrderId' ∧
      Option.Rel Decimal.SameValue price price'
| partiallyFilled fill, partiallyFilled fill' =>
    fill.SameValue fill'
| filled fill, filled fill' => fill.SameValue fill'
| a, b => a = b

/- An occurrence with its decimals as carried. -/
def carried? :
    Occurrence → Option Occurrence
| working venueOrderId price =>
    (price.mapM Decimal.carried?).map (working venueOrderId)
| partiallyFilled fill => fill.carried?.map partiallyFilled
| filled fill => fill.carried?.map filled
| occurrence => some occurrence

theorem map_fst_members
    (occurrence : Occurrence) :
    occurrence.members.map Prod.fst = fieldNames occurrence.kind := by
  cases occurrence <;> rfl

theorem isProper_of_mem_members
    (occurrence : Occurrence) :
    ∀ member ∈ occurrence.members, member.2.IsProper := by
  intro member hMem
  cases occurrence with
  | submitted | cancelled | expired => cases hMem
  | accepted s | rejected s | invalid s | denied s =>
      rw [List.mem_singleton.mp hMem]
      exact Json.isProper_text s
  | partiallyFilled fill | filled fill =>
      rw [List.mem_singleton.mp hMem]
      exact fill.isProper_toJson
  | working venueOrderId price =>
      rcases List.mem_pair.mp hMem with rfl | rfl
      · exact Json.isProper_text _
      · exact Json.isProper_nullable Decimal.isProper_toJson _

/- An occurrence is read back with its decimals as carried. -/
theorem ofFields?_members
    (occurrence : Occurrence) :
    ofFields? occurrence.kind
        (occurrence.members.map fun member => some member.2) =
      occurrence.carried? := by
  cases occurrence with
  | working venueOrderId price =>
      change
        ((some venueOrderId).bind fun venueOrderId =>
          (Json.optional? Decimal.ofJson?
            (some (Json.nullable Decimal.toJson price))).bind
              fun price => some (working venueOrderId price)) = _
      rw [Decimal.optional?_toJson]
      change _ = (price.mapM Decimal.carried?).map _
      cases price.mapM Decimal.carried? <;> rfl
  | partiallyFilled fill | filled fill =>
      change (Fill.ofJson? fill.toJson).map _ = _
      rw [Fill.ofJson?_toJson]
      rfl
  | _ => rfl

/- An occurrence is carried to itself if its decimals survive. -/
theorem exists_carried?_iff
    (occurrence : Occurrence) :
    (∃ carried, occurrence.carried? = some carried ∧
        carried.SameValue occurrence) ↔
      ∀ a ∈ occurrence.decimals, a.Survives := by
  cases occurrence with
  | working venueOrderId price =>
      unfold carried? decimals
      rw [exists_map_iff]
      simp only [SameValue, true_and, Option.mem_toList]
      exact Decimal.optional_survives_iff price
  | partiallyFilled fill | filled fill =>
      unfold carried? decimals
      rw [exists_map_iff]
      exact fill.exists_carried?_iff
  | _ => simp [carried?, decimals, SameValue]

theorem membersStrict_members
    {occurrence carried : Occurrence}
    (hCarried : occurrence.carried? = some carried) :
    Json.membersStrict
        (occurrence.members.map fun (key, value) =>
          (some key, value)) = true := by
  cases occurrence with
  | working venueOrderId price =>
      unfold carried? at hCarried
      rw [Option.map_eq_some_iff] at hCarried
      rcases hCarried with ⟨_, hPrice, -⟩
      simp [members, Json.membersStrict, Json.isStrict, text,
        Decimal.isStrict_nullable hPrice]
  | partiallyFilled fill | filled fill =>
      unfold carried? at hCarried
      rw [Option.map_eq_some_iff] at hCarried
      rcases hCarried with ⟨_, hFill, -⟩
      simp [members, Json.membersStrict,
        Fill.isStrict_toJson hFill]
  | _ => rfl

theorem membersDepth_members
    (occurrence : Occurrence) :
    Json.membersDepth
        (occurrence.members.map fun (key, value) =>
          (some key, value)) ≤ 1 := by
  cases occurrence with
  | working venueOrderId price =>
      cases price <;> exact Nat.zero_le 1
  | partiallyFilled fill | filled fill => exact Nat.le_refl 1
  | _ => exact Nat.zero_le 1

end Occurrence

------------------------------------------------------------
-- Events
------------------------------------------------------------

namespace OrderEvent

/- The decimals of an event. -/
def decimals
    (event : OrderEvent) : List Decimal :=
  event.occurrence.decimals

/- The events are the same, decimals compared by value. -/
structure SameValue
    (a b : OrderEvent) : Prop where
  orderId : a.orderId = b.orderId
  occurrence : a.occurrence.SameValue b.occurrence

theorem kindOfTag?_tag
    (kind : EventKind) :
    kindOfTag? (text kind.tag) = some kind := by
  cases kind <;> decide

theorem isProper_toJson
    (event : OrderEvent) :
    event.toJson.IsProper := by
  refine Json.isProper_record fun member hMem => ?_
  rcases List.mem_cons.mp hMem with rfl | hRest
  · exact Json.isProper_text _
  · rcases List.mem_cons.mp hRest with rfl | hMember
    · exact Json.isProper_text _
    · exact event.occurrence.isProper_of_mem_members member hMember

/- The tag is taken off an event. -/
theorem untag?_toJson
    (event : OrderEvent) :
    untag? event.toJson =
      some
        (text event.kind.tag,
          record
            (("order_id", event.orderId.toJson) ::
              event.occurrence.members)) := by
  rcases event with ⟨orderId, occurrence⟩
  cases occurrence <;> rfl

theorem ofUntagged?_record
    (event : OrderEvent) :
    ofUntagged? event.kind
        (record
          (("order_id", event.orderId.toJson) ::
            event.occurrence.members)) =
      event.occurrence.carried?.map (OrderEvent.mk event.orderId) := by
  have hNames :
      ("order_id" :: Occurrence.fieldNames event.kind).Nodup := by
    cases event.kind <;> decide
  unfold OrderEvent.kind at hNames
  rw [← Occurrence.map_fst_members] at hNames
  have hFields :=
    Json.fields?_record
      (("order_id", event.orderId.toJson) ::
        event.occurrence.members) hNames
  rw [List.map_cons, Occurrence.map_fst_members] at hFields
  unfold ofUntagged? OrderEvent.kind
  rw [hFields, List.map_cons]
  dsimp only
  rw [Option.bind_some, OrderId.ofJson?_toJson,
    Occurrence.ofFields?_members]
  cases event.occurrence.carried? <;> rfl

theorem depth_toJson_le
    (event : OrderEvent) :
    event.toJson.depth ≤ 2 := by
  have hMembers := event.occurrence.membersDepth_members
  have hDepth :
      event.toJson.depth =
        max 0 (max 0
          (Json.membersDepth
            (event.occurrence.members.map fun (key, value) =>
              (some key, value)))) + 1 :=
    rfl
  omega

theorem isStrict_toJson
    {event : OrderEvent}
    {carried : Occurrence}
    (hCarried : event.occurrence.carried? = some carried) :
    event.toJson.isStrict = true :=
  Occurrence.membersStrict_members hCarried

/-
  An event is read back with its decimals as carried, unless
  it stands inside of too many others.
-/
theorem ofJson?_toJson
    (event : OrderEvent)
    {outside : Nat}
    (hOutside : outside ≤ 125) :
    ofJson? outside event.toJson =
      event.occurrence.carried?.map (OrderEvent.mk event.orderId) := by
  have hNested : outside + event.toJson.depth ≤ maxDepth := by
    have hDepth := event.depth_toJson_le
    unfold maxDepth
    omega
  unfold ofJson?
  rw [untag?_toJson, Option.bind_some]
  dsimp only
  rw [kindOfTag?_tag, Option.bind_some, ofUntagged?_record]
  cases hCarried : event.occurrence.carried? with
  | none => exact ite_self _
  | some carried =>
      rw [if_pos ⟨isStrict_toJson hCarried, hNested⟩]

/- An event survives if its decimals do. -/
theorem survives_iff
    (event : OrderEvent) :
    Wire.Survives toJson (ofJson? 0) SameValue event ↔
      ∀ a ∈ event.decimals, a.Survives := by
  unfold decimals
  rw [Wire.survives_iff event.isProper_toJson,
    event.ofJson?_toJson (Nat.zero_le _), exists_map_iff,
    ← Occurrence.exists_carried?_iff]
  constructor
  · rintro ⟨carried, hCarried, hSame⟩
    exact ⟨carried, hCarried, hSame.occurrence⟩
  · rintro ⟨carried, hCarried, hSame⟩
    exact ⟨carried, hCarried, rfl, hSame⟩

end OrderEvent

------------------------------------------------------------
-- Messages Without Decimals
------------------------------------------------------------

theorem CancelOrder.isReadBack
    (cancel : CancelOrder) :
    Wire.Survives toJson ofJson? Eq cancel := by
  have hProper : cancel.toJson.IsProper := by
    refine Json.isProper_record fun member hMem => ?_
    rw [List.mem_singleton.mp hMem]
    exact Json.isProper_text _
  have hFields :
      cancel.toJson.fields? fieldNames =
        some [some cancel.orderId.toJson] :=
    Json.fields?_record [("order_id", cancel.orderId.toJson)]
      (show fieldNames.Nodup by decide)
  refine (Wire.survives_iff hProper).mpr ⟨cancel, ?_, rfl⟩
  unfold ofJson?
  rw [hFields]
  dsimp only
  rw [Option.bind_some, OrderId.ofJson?_toJson]
  rfl

theorem CancelRejected.isReadBack
    (rejection : CancelRejected) :
    Wire.Survives toJson ofJson? Eq rejection := by
  have hProper : rejection.toJson.IsProper := by
    refine Json.isProper_record fun member hMem => ?_
    simp only [List.mem_cons, List.not_mem_nil, or_false] at hMem
    rcases hMem with rfl | rfl | rfl
    · exact Json.isProper_text _
    · exact Json.isProper_nullable (fun _ => Json.isProper_text _) _
    · exact Json.isProper_text _
  have hFields :
      rejection.toJson.fields? fieldNames =
        some
          [some rejection.orderId.toJson,
            some (Json.nullable OrderState.toJson rejection.state),
            some (text rejection.reason)] :=
    Json.fields?_record
      [("order_id", rejection.orderId.toJson),
        ("state", Json.nullable OrderState.toJson rejection.state),
        ("reason", text rejection.reason)]
      (show fieldNames.Nodup by decide)
  have hState :
      Json.optional? OrderState.ofJson?
          (some (Json.nullable OrderState.toJson rejection.state)) =
        some rejection.state := by
    rw [Json.optional?_nullable OrderState.toJson_ne_null]
    cases rejection.state with
    | none => rfl
    | some state =>
        dsimp only
        rw [OrderState.ofJson?_toJson]
        rfl
  refine (Wire.survives_iff hProper).mpr ⟨rejection, ?_, rfl⟩
  unfold ofJson?
  rw [hFields]
  simp only [Option.bind_some, OrderId.ofJson?_toJson, hState,
    Json.text?_text, Option.bind_eq_bind, Option.pure_def]

theorem TransitionRejected.isReadBack
    (rejection : TransitionRejected) :
    Wire.Survives toJson ofJson? Eq rejection := by
  have hProper : rejection.toJson.IsProper := by
    refine Json.isProper_record fun member hMem => ?_
    simp only [List.mem_cons, List.not_mem_nil, or_false] at hMem
    rcases hMem with rfl | rfl | rfl
    · exact Json.isProper_text _
    · exact Json.isProper_text _
    · exact Json.isProper_text _
  have hFields :
      rejection.toJson.fields? fieldNames =
        some
          [some rejection.orderId.toJson,
            some rejection.state.toJson,
            some rejection.trigger.toJson] :=
    Json.fields?_record
      [("order_id", rejection.orderId.toJson),
        ("state", rejection.state.toJson),
        ("trigger", rejection.trigger.toJson)]
      (show fieldNames.Nodup by decide)
  refine (Wire.survives_iff hProper).mpr ⟨rejection, ?_, rfl⟩
  unfold ofJson?
  rw [hFields]
  simp only [Option.bind_some, OrderId.ofJson?_toJson,
    OrderState.ofJson?_toJson, EventKind.ofJson?_toJson,
    Option.bind_eq_bind, Option.pure_def]

------------------------------------------------------------
-- All Messages About Orders
------------------------------------------------------------

namespace Wire

/-
  A submission or an event is decoded from its text to the
  same value if and only if each of its decimals is when it
  stands alone, and every ordinary decimal is. The other
  messages always are.
-/
theorem messages_survive :
    (∀ order : SubmitOrder,
      Survives SubmitOrder.toJson SubmitOrder.ofJson?
          SubmitOrder.SameValue order ↔
        ∀ a ∈ order.decimals, a.Survives) ∧
    (∀ event : OrderEvent,
      Survives OrderEvent.toJson (OrderEvent.ofJson? 0)
          OrderEvent.SameValue event ↔
        ∀ a ∈ event.decimals, a.Survives) ∧
    (∀ a : Decimal, a.IsOrdinary → a.Survives) ∧
    (∀ cancel : CancelOrder,
      Survives CancelOrder.toJson CancelOrder.ofJson? Eq cancel) ∧
    (∀ rejection : CancelRejected,
      Survives CancelRejected.toJson CancelRejected.ofJson? Eq
        rejection) ∧
    ∀ rejection : TransitionRejected,
      Survives TransitionRejected.toJson TransitionRejected.ofJson?
        Eq rejection :=
  ⟨SubmitOrder.survives_iff, OrderEvent.survives_iff,
    fun _ => Decimal.survives_of_isOrdinary, CancelOrder.isReadBack,
    CancelRejected.isReadBack, TransitionRejected.isReadBack⟩

/- An order to buy a fraction of a coin. -/
def ordinaryOrder : SubmitOrder where
  orderId := OrderId.ofNat 1
  symbol := ⟨"btc"⟩
  side := .buy
  orderType := .limit
  quantity := ⟨1125, 3, by decide, by decide⟩
  price := some ⟨10025, 2, by decide, by decide⟩

/- It is decoded to the same order. -/
theorem ordinaryOrder_survives :
    (∀ a ∈ ordinaryOrder.decimals, a.IsOrdinary) ∧
      Survives SubmitOrder.toJson SubmitOrder.ofJson?
        SubmitOrder.SameValue ordinaryOrder := by
  have hOrdinary : ∀ a ∈ ordinaryOrder.decimals, a.IsOrdinary := by
    unfold SubmitOrder.decimals ordinaryOrder
    intro a hMem
    rcases List.mem_pair.mp hMem with rfl | rfl
    · exact ⟨1125, 3, by decide, by decide, rfl⟩
    · exact ⟨10025, 2, by decide, by decide, rfl⟩
  refine ⟨hOrdinary, (messages_survive.1 ordinaryOrder).mpr ?_⟩
  exact fun a hMem => messages_survive.2.2.1 a (hOrdinary a hMem)

/- An order to buy 8000000000000020 coins. -/
def largeOrder : SubmitOrder :=
  { ordinaryOrder with quantity := .ofNat 8000000000000020 }

/- It is decoded to an order to buy one coin less. -/
theorem largeOrder_altered :
    decode (fun j => wellFormed (SubmitOrder.ofJson? j))
          largeOrder.toJson.toText =
        .ok
          { largeOrder with quantity := .ofNat 8000000000000019 } ∧
      ¬ Survives SubmitOrder.toJson SubmitOrder.ofJson?
        SubmitOrder.SameValue largeOrder := by
  have hQuantity :
      largeOrder.quantity.carried? =
        some (.ofNat 8000000000000019) := by
    decide +kernel
  have hPrice :
      largeOrder.price.mapM Decimal.carried? =
        some largeOrder.price := by
    decide +kernel
  have hRead :
      SubmitOrder.ofJson? largeOrder.toJson =
        some
          { largeOrder with quantity := .ofNat 8000000000000019 } := by
    rw [SubmitOrder.ofJson?_toJson, hQuantity, hPrice]
    rfl
  constructor
  · rw [decode_toText largeOrder.isProper_toJson, hRead]
    rfl
  · rw [survives_iff largeOrder.isProper_toJson, hRead]
    rintro ⟨_, ⟨⟩, hSame⟩
    exact absurd hSame.quantity (by decide)

end Wire

end OrderDesk
