import OrderDesk.Proofs.Json.Record
import OrderDesk.Proofs.Text.Timestamp
import OrderDesk.Proofs.Text.Uuid
import OrderDesk.Wire.Message

/-
  This file proves which headers the envelopes have that can
  be made, and what is read back of them from their text.

  A header has an identity and a time, however its envelope
  was made and passed on. What is read back is the header
  itself, unless it is that of a response that does not say
  what it answers. Such a response can be made, by asking
  for a new envelope of that category, but not read.

  Key definitions include:
    * `Stamp.IsFresh`
    * `Provenance`
    * `Envelope.IsBuilt`

  Key theorems include:
    * `Header.unchecked?_toJson`
    * `Header.decode_toText`
    * `Envelope.IsBuilt.isMade`
    * `Envelope.IsBuilt.survives`
-/

namespace OrderDesk

------------------------------------------------------------
-- Headers As Text
------------------------------------------------------------

theorem Uuid.ofJson?_toJson
    (u : Uuid) :
    ofJson? u.toJson = some u := by
  unfold ofJson? toJson
  rw [Json.text?_text, Option.bind_some, ofText?_toText]

theorem Uuid.toJson_ne_null
    (u : Uuid) :
    u.toJson ≠ Json.null :=
  Json.text_ne_null u.toText

theorem Timestamp.ofJson?_toJson
    {t : Timestamp}
    (hValid : t.IsValid) :
    ofJson? t.toJson = some t := by
  unfold ofJson? toJson
  rw [Json.text?_text, Option.bind_some, ofText?_toText hValid]

theorem Category.ofJson?_toJson
    (category : Category) :
    ofJson? category.toJson = some category := by
  cases category <;> decide

namespace Header

theorem isProper_toJson
    (header : Header) :
    header.toJson.IsProper := by
  refine Json.isProper_record fun member hMem => ?_
  simp only [List.mem_cons, List.not_mem_nil, or_false] at hMem
  rcases hMem with rfl | rfl | rfl | rfl
  · exact Json.isProper_text _
  · exact Json.isProper_text _
  · exact Json.isProper_text _
  · exact Json.isProper_nullable (fun u => Json.isProper_text _) _

/- The fields of a header are read back. -/
theorem unchecked?_toJson
    {header : Header}
    (hValid : header.timestamp.IsValid) :
    unchecked? header.toJson = some header := by
  have hFields :
      header.toJson.fields? fieldNames =
        some
          [some header.id.toJson, some header.timestamp.toJson,
            some header.category.toJson,
            some
              (Json.nullable Uuid.toJson header.correlationId)] :=
    Json.fields?_record
      [("id", header.id.toJson),
        ("timestamp", header.timestamp.toJson),
        ("category", header.category.toJson),
        ("correlation_id",
          Json.nullable Uuid.toJson header.correlationId)]
      (show fieldNames.Nodup by decide)
  have hCorrelation :
      Json.optional? Uuid.ofJson?
          (some (Json.nullable Uuid.toJson header.correlationId)) =
        some header.correlationId := by
    rw [Json.optional?_nullable Uuid.toJson_ne_null]
    cases header.correlationId with
    | none => rfl
    | some u =>
        dsimp only
        rw [Uuid.ofJson?_toJson]
        rfl
  unfold unchecked?
  rw [hFields]
  simp only [Option.bind_some, Uuid.ofJson?_toJson,
    Timestamp.ofJson?_toJson hValid, Category.ofJson?_toJson,
    hCorrelation, Option.bind_eq_bind, Option.pure_def]

/-
  A header with an identity and a time is read back, unless
  it is that of a response that does not say what it
  answers.
-/
theorem decode_toText
    {header : Header}
    (hValid : header.timestamp.IsValid)
    (hId : header.id ≠ Uuid.nil)
    (hTimestamp : header.timestamp ≠ Timestamp.epoch) :
    Wire.decode ofJson header.toJson.toText =
      if header.category = .response ∧
          header.correlationId = none then
        .error (.invalid .uncorrelatedResponse)
      else
        .ok header := by
  rw [Wire.decode_toText header.isProper_toJson]
  unfold ofJson
  rw [unchecked?_toJson hValid]
  unfold Wire.wellFormed ofParts
  simp only [Except.bind]
  rw [if_neg hId, if_neg hTimestamp]
  by_cases hBare :
      header.category = .response ∧ header.correlationId = none
  · rw [if_pos hBare, if_pos hBare]
  · rw [if_neg hBare, if_neg hBare]

/- What is checked of the parts of a header holds of it. -/
theorem of_ofParts
    {id : Uuid}
    {timestamp : Timestamp}
    {category : Category}
    {correlationId : Option Uuid}
    {header : Header}
    (hParts :
      ofParts id timestamp category correlationId = .ok header) :
    header = ⟨id, timestamp, category, correlationId⟩ ∧
      id ≠ Uuid.nil ∧
        timestamp ≠ Timestamp.epoch ∧
          ¬ (category = .response ∧ correlationId = none) := by
  unfold ofParts at hParts
  split at hParts
  · cases hParts
  · rename_i hId
    split at hParts
    · cases hParts
    · rename_i hTimestamp
      split at hParts
      · cases hParts
      · rename_i hAnswers
        cases hParts
        exact ⟨rfl, hId, hTimestamp, hAnswers⟩

/- The time of a header that is read is valid. -/
theorem isValid_of_unchecked?
    {j : Json}
    {header : Header}
    (hRead : unchecked? j = some header) :
    header.timestamp.IsValid := by
  unfold unchecked? at hRead
  split at hRead
  · simp only [Option.bind_eq_bind, Option.bind_eq_some_iff]
      at hRead
    rcases hRead with
      ⟨id, -, timestamp, ⟨field, -, hTimestamp⟩, category, -,
        correlationId, -, hHeader⟩
    cases hHeader
    unfold Timestamp.ofJson? at hTimestamp
    rw [Option.bind_eq_some_iff] at hTimestamp
    rcases hTimestamp with ⟨text, -, hText⟩
    exact Timestamp.isValid_of_ofText? hText
  · cases hRead

theorem of_decode
    {text : String}
    {header : Header}
    (hDecode : Wire.decode ofJson text = .ok header) :
    header.timestamp.IsValid ∧
      header.id ≠ Uuid.nil ∧
        header.timestamp ≠ Timestamp.epoch ∧
          ¬ (header.category = .response ∧
            header.correlationId = none) := by
  rcases Wire.exists_of_decode hDecode with ⟨root, -, hRead⟩
  unfold ofJson at hRead
  cases hUnchecked : unchecked? root with
  | none =>
      rw [hUnchecked] at hRead
      cases hRead
  | some given =>
      have hValid := isValid_of_unchecked? hUnchecked
      rw [hUnchecked] at hRead
      simp only [Wire.wellFormed, Except.bind] at hRead
      split at hRead
      · rename_i hParts
        cases hRead
        rcases of_ofParts hParts with ⟨rfl, hChecked⟩
        exact ⟨hValid, hChecked⟩
      · cases hRead

end Header

------------------------------------------------------------
-- Envelopes That Can Be Made
------------------------------------------------------------

/-
  A stamp as it is drawn: its identity is random, and its
  clock shows a time, but not the start of 1970.
-/
structure Stamp.IsFresh
    (stamp : Stamp) : Prop where
  random : ∃ bits, stamp.id = Uuid.ofRandom bits
  valid : stamp.time.IsValid
  set : stamp.time ≠ Timestamp.epoch

/-
  Where an envelope comes from: it was asked for as a new
  envelope of the category of responses, and so it does not
  say what it answers, or it came about in any other way.
-/
inductive Provenance where
  | bareResponse
  | regular
deriving DecidableEq

namespace Envelope

/-
  An envelope that can be made. It is new, or it has a
  header that was put together from parts or read from a
  text. After that its payload may have been looked at in
  other ways, any number of times.
-/
inductive IsBuilt :
    Provenance → {P : Type} → Envelope P → Prop where
  | make {P : Type} {stamp : Stamp}
      (hStamp : stamp.IsFresh)
      {category : Category}
      (hCategory : category ≠ .response)
      (payload : P) :
      IsBuilt .regular (Envelope.make stamp category payload)
  | bareResponse {P : Type} {stamp : Stamp}
      (hStamp : stamp.IsFresh)
      (payload : P) :
      IsBuilt .bareResponse (Envelope.make stamp .response payload)
  | command {P : Type} {stamp : Stamp}
      (hStamp : stamp.IsFresh)
      (payload : P) :
      IsBuilt .regular (Envelope.command stamp payload)
  | event {P : Type} {stamp : Stamp}
      (hStamp : stamp.IsFresh)
      (payload : P) :
      IsBuilt .regular (Envelope.event stamp payload)
  | document {P : Type} {stamp : Stamp}
      (hStamp : stamp.IsFresh)
      (payload : P) :
      IsBuilt .regular (Envelope.document stamp payload)
  | request {P : Type} {stamp : Stamp}
      (hStamp : stamp.IsFresh)
      (payload : P) :
      IsBuilt .regular (Envelope.request stamp payload)
  | response {P : Type} {stamp : Stamp}
      (hStamp : stamp.IsFresh)
      (payload : P)
      {requestId : Uuid}
      (hRequest : requestId ≠ Uuid.nil) :
      IsBuilt .regular (Envelope.response stamp payload requestId)
  | assembled {P : Type}
      {id : Uuid}
      {timestamp : Timestamp}
      {category : Category}
      {correlationId : Option Uuid}
      {header : Header}
      (hValid : timestamp.IsValid)
      (hParts :
        Header.ofParts id timestamp category correlationId =
          .ok header)
      (payload : P) :
      IsBuilt .regular ⟨header, payload⟩
  | decoded {P : Type} {text : String} {header : Header}
      (hDecode : Wire.decode Header.ofJson text = .ok header)
      (payload : P) :
      IsBuilt .regular ⟨header, payload⟩
  | mapped {provenance : Provenance} {P U : Type}
      {envelope : Envelope P}
      (hBuilt : IsBuilt provenance envelope)
      {f : P → Except P U}
      {result : Envelope U}
      (hMap : envelope.tryMap f = .ok result) :
      IsBuilt provenance result
  | givenBack {provenance : Provenance} {P U : Type}
      {envelope : Envelope P}
      (hBuilt : IsBuilt provenance envelope)
      {f : P → Except P U}
      {result : Envelope P}
      (hMap : envelope.tryMap f = .error result) :
      IsBuilt provenance result
  | widened {provenance : Provenance} {P U : Type}
      {envelope : Envelope P}
      (hBuilt : IsBuilt provenance envelope)
      (embed : P → U) :
      IsBuilt provenance (envelope.widen embed)

/- The header of an envelope is kept when its payload changes. -/
theorem header_of_tryMap
    {P U : Type}
    {envelope : Envelope P}
    {f : P → Except P U} :
    (∀ result, envelope.tryMap f = .ok result →
        result.header = envelope.header) ∧
      ∀ back, envelope.tryMap f = .error back →
        back.header = envelope.header := by
  unfold tryMap
  cases f envelope.payload with
  | ok payload =>
      constructor
      · rintro _ ⟨⟩
        rfl
      · rintro _ ⟨⟩
  | error payload =>
      constructor
      · rintro _ ⟨⟩
      · rintro _ ⟨⟩
        rfl

end Envelope

------------------------------------------------------------
-- What Holds Of Headers
------------------------------------------------------------

/-
  A header has an identity and a time, and it is that of a
  bare response only if that was asked for.
-/
structure Header.IsMade
    (provenance : Provenance)
    (header : Header) : Prop where
  id : header.id ≠ Uuid.nil
  valid : header.timestamp.IsValid
  timestamp : header.timestamp ≠ Timestamp.epoch
  bare :
    header.category = .response ∧ header.correlationId = none ↔
      provenance = .bareResponse

/- The header of a new message is made of a stamp. -/
theorem Stamp.IsFresh.isMade
    {stamp : Stamp}
    (hStamp : stamp.IsFresh)
    {provenance : Provenance}
    {category : Category}
    {correlationId : Option Uuid}
    (hBare :
      category = .response ∧ correlationId = none ↔
        provenance = .bareResponse) :
    Header.IsMade provenance
      (Header.stamped stamp category correlationId) where
  id := by
    rcases hStamp.random with ⟨bits, hId⟩
    unfold Header.stamped
    dsimp only
    rw [hId]
    exact Uuid.ofRandom_ne_nil bits
  valid := hStamp.valid
  timestamp := hStamp.set
  bare := hBare

namespace Envelope

/- Every envelope that can be made has such a header. -/
theorem IsBuilt.isMade
    {provenance : Provenance}
    {P : Type}
    {envelope : Envelope P}
    (hBuilt : IsBuilt provenance envelope) :
    envelope.header.IsMade provenance := by
  induction hBuilt with
  | make hStamp hCategory payload =>
      exact hStamp.isMade (by simp [hCategory])
  | bareResponse hStamp payload => exact hStamp.isMade (by simp)
  | command hStamp payload => exact hStamp.isMade (by simp)
  | event hStamp payload => exact hStamp.isMade (by simp)
  | document hStamp payload => exact hStamp.isMade (by simp)
  | request hStamp payload => exact hStamp.isMade (by simp)
  | response hStamp payload hRequest =>
      exact hStamp.isMade (by simp)
  | assembled hValid hParts payload =>
      rcases Header.of_ofParts hParts with
        ⟨rfl, hId, hTimestamp, hAnswers⟩
      exact ⟨hId, hValid, hTimestamp, by simpa using hAnswers⟩
  | decoded hDecode payload =>
      rcases Header.of_decode hDecode with
        ⟨hValid, hId, hTimestamp, hAnswers⟩
      exact ⟨hId, hValid, hTimestamp, by simpa using hAnswers⟩
  | mapped hBuilt hMap ih =>
      rw [header_of_tryMap.1 _ hMap]
      exact ih
  | givenBack hBuilt hMap ih =>
      rw [header_of_tryMap.2 _ hMap]
      exact ih
  | widened hBuilt embed ih => exact ih

/-
  Whatever envelope is made, its header has an identity and
  a time, and it says what it answers if it is a response,
  except for a bare response. It is read back from its text,
  except for that of a bare response, which is refused.
-/
theorem IsBuilt.survives
    {provenance : Provenance}
    {P : Type}
    {envelope : Envelope P}
    (hBuilt : IsBuilt provenance envelope) :
    envelope.header.id ≠ Uuid.nil ∧
      envelope.header.timestamp ≠ Timestamp.epoch ∧
        (envelope.header.category = .response →
          (envelope.header.correlationId = none ↔
            provenance = .bareResponse)) ∧
          Wire.decode Header.ofJson
              envelope.header.toJson.toText =
            match provenance with
            | .bareResponse =>
                .error (.invalid .uncorrelatedResponse)
            | .regular => .ok envelope.header := by
  have hMade := hBuilt.isMade
  refine ⟨hMade.id, hMade.timestamp, ?_, ?_⟩
  · intro hResponse
    rw [← hMade.bare]
    exact ⟨fun hNone => ⟨hResponse, hNone⟩, And.right⟩
  · rw [Header.decode_toText hMade.valid hMade.id hMade.timestamp]
    cases provenance with
    | bareResponse => exact if_pos (hMade.bare.mpr rfl)
    | regular => exact if_neg fun hBare => nomatch hMade.bare.mp hBare

/- A stamp of the second of January 2024. -/
def newYearStamp : Stamp :=
  ⟨Uuid.ofRandom 7, ⟨1704164645, 678000000⟩⟩

/- It can be drawn. -/
theorem isFresh_newYearStamp :
    newYearStamp.IsFresh :=
  ⟨⟨7, rfl⟩, by
    unfold Timestamp.IsValid
    decide, by decide⟩

/- A response to a request, looked at as a text and as a number. -/
def answer : Envelope Nat :=
  .widen String.length
    (.response newYearStamp "done" (Uuid.ofNat 5))

/- Such a response is read back. -/
theorem survives_answer :
    IsBuilt .regular answer ∧
      answer.header.correlationId = some (Uuid.ofNat 5) ∧
        Wire.decode Header.ofJson answer.header.toJson.toText =
          .ok answer.header := by
  have hBuilt : IsBuilt .regular answer :=
    .widened
      (.response isFresh_newYearStamp "done" (by decide))
      String.length
  exact ⟨hBuilt, rfl, hBuilt.survives.2.2.2⟩

/-
  A new envelope of the category of responses does not say
  what it answers, and so it cannot be read back.
-/
theorem bareResponse_refused :
    IsBuilt .bareResponse
        (make newYearStamp .response "done") ∧
      (make newYearStamp .response "done").correlationId = none ∧
        Wire.decode Header.ofJson
            (make newYearStamp .response
              "done").header.toJson.toText =
          .error (.invalid .uncorrelatedResponse) := by
  have hBuilt := IsBuilt.bareResponse isFresh_newYearStamp "done"
  have hMade := hBuilt.isMade
  refine ⟨hBuilt, rfl, ?_⟩
  rw [Header.decode_toText hMade.valid hMade.id hMade.timestamp]
  exact if_pos ⟨rfl, rfl⟩

end Envelope

end OrderDesk
