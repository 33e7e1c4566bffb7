import OrderDesk.Proofs.Text.Uppercase
import OrderDesk.Proofs.Wire.Order

/-
  This file compares the two ways in which symbols come
  about. A symbol that is made from a text is in capitals,
  whatever the letter case of the text is. A symbol that is
  decoded with a submission is the text that was received.

  Key definitions include:
    * `Symbol.IsNormal`
    * `SubmitOrder.decode`
    * `SubmitOrder.symbolText?`
    * `Symbol.CaseRules`

  Key theorems include:
    * `Symbol.isNormal_ofText`
    * `SubmitOrder.symbolText?_of_decode`
    * `Symbol.caseRules`
    * `Symbol.smallLetters_kept`
-/

namespace OrderDesk

------------------------------------------------------------
-- Symbols In Normal Form
------------------------------------------------------------

namespace Symbol

variable {a b : Symbol}

/- The symbol is the one that its own text names. -/
def IsNormal
    (symbol : Symbol) : Prop :=
  ofText symbol.text = symbol

instance
    (symbol : Symbol) :
    Decidable symbol.IsNormal :=
  inferInstanceAs (Decidable (ofText symbol.text = symbol))

/- What is made from a text is in normal form. -/
theorem isNormal_ofText
    (s : String) :
    (ofText s).IsNormal :=
  congrArg Symbol.mk (Uppercase.ofText_ofText s)

theorem isNormal_iff :
    a.IsNormal ↔
      ∀ c ∈ a.text.toList, Uppercase.ofChar c = [c] := by
  rw [← Uppercase.ofText_eq_self_iff]
  exact ⟨congrArg Symbol.text, congrArg Symbol.mk⟩

/- Symbols in normal form are equal if they name the same market. -/
theorem IsNormal.eq_of_ofText_eq
    (hA : a.IsNormal)
    (hB : b.IsNormal)
    (hSame : ofText a.text = ofText b.text) :
    a = b :=
  calc
    a = ofText a.text := hA.symm
    _ = ofText b.text := hSame
    _ = b := hB

end Symbol

------------------------------------------------------------
-- Symbols Of Decoded Submissions
------------------------------------------------------------

namespace SubmitOrder

variable {s : String} {order : SubmitOrder}

/- The submission that a text decodes to. -/
def decode
    (s : String) : Except Wire.DecodeError SubmitOrder :=
  Wire.decode (fun j => Wire.wellFormed (ofJson? j)) s

/- The text of the symbol in a text, as it is received. -/
def symbolText?
    (s : String) : Option String := do
  let root ← (Json.Document.ofText s).root
  let fields ← root.fields? fieldNames
  let symbol ← fields[1]?
  symbol.bind Json.text?

/- The symbol of a submission is read from its second field. -/
theorem text?_of_ofJson?
    {j : Json}
    (hRead : ofJson? j = some order) :
    ∃ fields symbol,
      j.fields? fieldNames = some fields ∧
        fields[1]? = some symbol ∧
          symbol.bind Json.text? = some order.symbol.text := by
  unfold ofJson? at hRead
  split at hRead
  · rename_i orderId symbol side orderType quantity price hFields
    refine ⟨_, symbol, hFields, rfl, ?_⟩
    simp only [Option.bind_eq_bind, Option.bind_eq_some_iff] at hRead
    rcases hRead with
      ⟨_, _, name, ⟨value, hValue, hName⟩, _, _, _, _, _, _, _, _,
        hOrder⟩
    rcases Option.map_eq_some_iff.mp hName with ⟨text, hText, rfl⟩
    cases hOrder
    rw [hValue]
    exact hText
  · cases hRead

/- A decoded symbol is the text that was received. -/
theorem symbolText?_of_decode
    (hDecode : decode s = .ok order) :
    symbolText? s = some order.symbol.text := by
  rcases Wire.exists_of_decode hDecode with ⟨root, hRoot, hRead⟩
  cases hOrder : ofJson? root with
  | none =>
      rw [hOrder] at hRead
      cases hRead
  | some other =>
      rw [hOrder] at hRead
      cases hRead
      rcases text?_of_ofJson? hOrder with
        ⟨fields, symbol, hFields, hSymbol, hText⟩
      unfold symbolText?
      simp only [hRoot, hFields, hSymbol, hText, Option.bind_eq_bind,
        Option.bind_some]

/- A submission is decoded from its text with its decimals as carried. -/
theorem decode_toText
    (hQuantity : order.quantity.carried? = some order.quantity)
    (hPrice :
      order.price.mapM Decimal.carried? = some order.price) :
    decode order.toJson.toText = .ok order := by
  unfold decode
  rw [Wire.decode_toText order.isProper_toJson, ofJson?_toJson,
    hQuantity, hPrice]
  rfl

end SubmitOrder

------------------------------------------------------------
-- Letter Case
------------------------------------------------------------

/- The order to buy a fraction of a coin, of any market. -/
def Wire.ordinaryOrderOf
    (s : String) : SubmitOrder :=
  { ordinaryOrder with symbol := ⟨s⟩ }

/- It is decoded to the same order. -/
theorem Wire.decode_ordinaryOrderOf
    (s : String) :
    SubmitOrder.decode (ordinaryOrderOf s).toJson.toText =
      .ok (ordinaryOrderOf s) := by
  have hQuantity :
      ordinaryOrder.quantity.carried? =
        some ordinaryOrder.quantity := by
    decide +kernel
  have hPrice :
      ordinaryOrder.price.mapM Decimal.carried? =
        some ordinaryOrder.price := by
    decide +kernel
  exact SubmitOrder.decode_toText hQuantity hPrice

namespace Symbol

/-
  What becomes of the letter case of two texts. Upper-casing
  leaves nothing to be upper-cased, so that the symbol that
  is made from a text is in normal form. Texts in normal form
  that name the same market are the same.

  If submissions are decoded from the texts, their symbols
  are what was received. Such a symbol is in normal form only
  if it was received in capitals, and two of them are equal
  only if they were received equal. Any text may be received.
-/
structure CaseRules
    (s s' : String) : Prop where
  idempotent :
    Uppercase.ofText (Uppercase.ofText s) = Uppercase.ofText s
  made : (ofText s).IsNormal
  same :
    (⟨s⟩ : Symbol).IsNormal →
      (⟨s'⟩ : Symbol).IsNormal →
        ofText s = ofText s' → s = s'
  received :
    ∀ order,
      SubmitOrder.decode s = .ok order →
        SubmitOrder.symbolText? s = some order.symbol.text ∧
          (order.symbol.IsNormal ↔
            ∀ c ∈ order.symbol.text.toList,
              Uppercase.ofChar c = [c])
  compared :
    ∀ order order',
      SubmitOrder.decode s = .ok order →
        SubmitOrder.decode s' = .ok order' →
          (order.symbol = order'.symbol ↔
            SubmitOrder.symbolText? s = SubmitOrder.symbolText? s')
  arbitrary :
    ∃ document order,
      SubmitOrder.decode document = .ok order ∧
        order.symbol.text = s

/- Symbols keep the letter case that they are received in. -/
theorem caseRules
    (s s' : String) :
    CaseRules s s' where
  idempotent := Uppercase.ofText_ofText s
  made := isNormal_ofText s
  same hNormal hNormal' hSame :=
    congrArg Symbol.text (hNormal.eq_of_ofText_eq hNormal' hSame)
  received order hDecode :=
    ⟨SubmitOrder.symbolText?_of_decode hDecode, isNormal_iff⟩
  compared order order' hDecode hDecode' := by
    rw [SubmitOrder.symbolText?_of_decode hDecode,
      SubmitOrder.symbolText?_of_decode hDecode', Option.some.injEq]
    exact ⟨congrArg Symbol.text, congrArg Symbol.mk⟩
  arbitrary := ⟨_, _, Wire.decode_ordinaryOrderOf s, rfl⟩

/-
  A market in small letters is decoded as it stands, and so
  it is another one than the market that the letters name.
-/
theorem smallLetters_kept :
    SubmitOrder.decode (Wire.ordinaryOrderOf "btc").toJson.toText =
        .ok (Wire.ordinaryOrderOf "btc") ∧
      ¬ (Wire.ordinaryOrderOf "btc").symbol.IsNormal ∧
        (Wire.ordinaryOrderOf "btc").symbol ≠ ofText "btc" :=
  ⟨Wire.decode_ordinaryOrderOf "btc", by decide +kernel,
    by decide +kernel⟩

end Symbol

end OrderDesk
