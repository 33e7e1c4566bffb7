import Mathlib.Data.List.Induction
import Mathlib.Data.List.Nodup
import OrderDesk.Mailbox.Probe
import OrderDesk.Message.Trading

/-
  This file proves who is handed a message: one recipient,
  which depends on the payload and on the handlers that are
  registered, and not on the order of their registration.

  The handler for the kind of the payload comes first. It is
  handed what the payload was made of, under the header of
  the message. In a family in which every kind has a variant
  of its own it always takes the payload; a variant may also
  decline, and then the message goes on to the catch-all or
  else to the sink.

  Key definitions include:
    * `Variant.IsFaithful`
    * `Union`
    * `Registration`
    * `Registry.enrollAll`
    * `Registry.successes`
    * `IsHandedTo`
    * `RoutesMessages`

  Key theorems include:
    * `Registry.candidates_compile`
    * `Registry.exists_isHandedTo`
    * `IsHandedTo.unique`
    * `routesMessages`
-/

namespace OrderDesk

variable {S P K T : Type}

------------------------------------------------------------
-- Faithful Variants
------------------------------------------------------------

namespace Variant

/-
  A variant takes all payloads of its kind apart, each into
  what it was made of, and gives every other payload back as
  it is.
-/
structure IsFaithful
    [Payload P K]
    (variant : Variant P K T) : Prop where
  exists_embed :
    ∀ payload : P,
      Payload.kind payload = variant.kind →
        ∃ value, variant.embed value = payload
  extract_embed :
    ∀ value, variant.extract (variant.embed value) = .ok value
  givesBack :
    ∀ payload : P,
      Payload.kind payload ≠ variant.kind →
        variant.extract payload = .error payload

/- A faithful variant gives no payload of its kind back. -/
theorem IsFaithful.exists_extract
    [Payload P K]
    {variant : Variant P K T}
    (hFaithful : variant.IsFaithful)
    {payload : P}
    (hKind : variant.kind = Payload.kind payload) :
    ∃ value,
      variant.extract payload = .ok value ∧
        variant.embed value = payload := by
  rcases hFaithful.exists_embed payload hKind.symm with
    ⟨value, rfl⟩
  exact ⟨value, hFaithful.extract_embed value, rfl⟩

end Variant

/-
  The family of payloads that is declared by one type for
  each kind: a payload is a value of one of the types.
-/
structure Union
    (name : K → String)
    (Member : K → Type) where
  kind : K
  value : Member kind

namespace Union

variable {name : K → String}
variable {Member : K → Type}

instance : Payload (Union name Member) K :=
  ⟨kind, name⟩

/- The variant that is declared for a kind. -/
def variant
    [DecidableEq K]
    (kind : K) : Variant (Union name Member) K (Member kind) where
  kind := kind
  extract payload :=
    if hKind : payload.kind = kind then
      .ok (hKind ▸ payload.value)
    else
      .error payload
  embed value := ⟨kind, value⟩

/- Whatever the types, all variants of such a family are faithful. -/
theorem isFaithful_variant
    [DecidableEq K]
    (kind : K) :
    (variant kind : Variant (Union name Member) K _).IsFaithful where
  exists_embed := by
    rintro ⟨_, value⟩ hKind
    cases hKind
    exact ⟨value, rfl⟩
  extract_embed value := by simp [variant]
  givesBack payload hKind := dif_neg hKind

end Union

namespace TradingMessage

/- Every trading message is taken apart as what it is. -/
theorem isFaithful_variants :
    submissions.IsFaithful ∧ cancels.IsFaithful ∧
      reports.IsFaithful ∧ cancelRejections.IsFaithful ∧
        transitionRejections.IsFaithful := by
  refine ⟨?_, ?_, ?_, ?_, ?_⟩ <;>
    exact
      { exists_embed := fun payload hKind => by
          cases payload <;> cases hKind
          exact ⟨_, rfl⟩
        extract_embed := fun _ => rfl
        givesBack := fun payload hKind => by
          cases payload <;> first | rfl | exact absurd rfl hKind }

end TradingMessage

/- Probes of a kind are taken apart as what they are. -/
theorem Probe.isFaithful_variant
    (kind : ProbeKind) :
    (variant kind).IsFaithful where
  exists_embed := by
    rintro ⟨_, value⟩ hKind
    cases hKind
    exact ⟨value, rfl⟩
  extract_embed value := by simp [variant]
  givesBack payload hKind := if_neg hKind

------------------------------------------------------------
-- Registration
------------------------------------------------------------

/-
  A call that registers a handler, for the payloads of a
  variant or for the whole family. It makes no difference
  for the call whether the handler rests.
-/
inductive Registration (S P K : Type) : Type 1 where
  | typed {T : Type}
      (variant : Variant P K T)
      (typeName : String)
      (react : S → Envelope T → Reaction S P)
  | catchAll
      (typeName : String)
      (react : S → Envelope P → Reaction S P)

namespace Registration

/- The handler that is registered. -/
def handler :
    Registration S P K → Handler S P K
| typed variant typeName react =>
    Handler.typed variant typeName react
| catchAll typeName react => Handler.catchAll typeName react

/- The kind that the handler is for; none for all kinds. -/
def kind
    (call : Registration S P K) : Option K :=
  call.handler.kind

/- The handler is for a faithful variant or for all payloads. -/
def IsFaithful
    [Payload P K] :
    Registration S P K → Prop
| typed variant _ _ => variant.IsFaithful
| catchAll _ _ => True

end Registration

namespace Registry

/- The kinds of the handlers, in the order of registration. -/
def kinds
    (registry : Registry S P K) : List (Option K) :=
  registry.handlers.map (·.kind)

theorem kinds_of_calls
    (component : String)
    (calls : List (Registration S P K)) :
    (⟨component, calls.map Registration.handler⟩ :
      Registry S P K).kinds = calls.map Registration.kind :=
  List.map_map

variable [DecidableEq K]

/- Make a call. One that is refused changes nothing. -/
def enroll
    (registry : Registry S P K)
    (call : Registration S P K) : Registry S P K :=
  match registry.insert call.handler with
  | .ok next => next
  | .error _ => registry

/- Make one call after the other. -/
def enrollAll
    (registry : Registry S P K)
    (calls : List (Registration S P K)) : Registry S P K :=
  calls.foldl enroll registry

/- The calls that are not refused when they are made in turn. -/
def successes
    (registry : Registry S P K) :
    List (Registration S P K) → List (Registration S P K)
| [] => []
| call :: calls =>
    match registry.insert call.handler with
    | .ok next => call :: next.successes calls
    | .error _ => registry.successes calls

theorem lookup_eq_none_iff
    {registry : Registry S P K}
    {kind : Option K} :
    registry.lookup kind = none ↔ kind ∉ registry.kinds := by
  simp [lookup, kinds]

theorem insert_of_notMem
    {registry : Registry S P K}
    {handler : Handler S P K}
    (hNew : handler.kind ∉ registry.kinds) :
    registry.insert handler =
      .ok
        { registry with
          handlers := registry.handlers ++ [handler] } := by
  unfold insert
  rw [lookup_eq_none_iff.mpr hNew]

theorem insert_of_mem
    {registry : Registry S P K}
    {handler : Handler S P K}
    (hTaken : handler.kind ∈ registry.kinds) :
    registry.insert handler =
      .error ⟨registry.component, handler.typeName⟩ := by
  unfold insert
  cases hLookup : registry.lookup handler.kind with
  | none => exact absurd hTaken (lookup_eq_none_iff.mp hLookup)
  | some other => rfl

theorem enroll_of_notMem
    {registry : Registry S P K}
    {call : Registration S P K}
    (hNew : call.kind ∉ registry.kinds) :
    registry.enroll call =
      { registry with
        handlers := registry.handlers ++ [call.handler] } := by
  unfold enroll
  rw [insert_of_notMem hNew]

/- A call for a kind that is taken changes nothing. -/
theorem enroll_of_mem
    {registry : Registry S P K}
    {call : Registration S P K}
    (hTaken : call.kind ∈ registry.kinds) :
    registry.enroll call = registry := by
  unfold enroll
  rw [insert_of_mem hTaken]

theorem successes_cons_of_notMem
    {registry : Registry S P K}
    {call : Registration S P K}
    (hNew : call.kind ∉ registry.kinds)
    (calls : List (Registration S P K)) :
    registry.successes (call :: calls) =
      call :: (registry.enroll call).successes calls := by
  simp only [successes, insert_of_notMem hNew,
    enroll_of_notMem hNew]

theorem successes_cons_of_mem
    {registry : Registry S P K}
    {call : Registration S P K}
    (hTaken : call.kind ∈ registry.kinds)
    (calls : List (Registration S P K)) :
    registry.successes (call :: calls) =
      registry.successes calls := by
  simp only [successes, insert_of_mem hTaken]

/- The handlers of successful calls are registered, no others. -/
theorem enrollAll_eq
    (registry : Registry S P K)
    (calls : List (Registration S P K)) :
    registry.enrollAll calls =
      { registry with
        handlers :=
          registry.handlers ++
            (registry.successes calls).map
              Registration.handler } := by
  unfold enrollAll
  induction calls generalizing registry with
  | nil => simp [successes]
  | cons call calls ih =>
      rw [List.foldl_cons, ih]
      by_cases hTaken : call.kind ∈ registry.kinds
      · rw [successes_cons_of_mem hTaken, enroll_of_mem hTaken]
      · rw [successes_cons_of_notMem hTaken,
          enroll_of_notMem hTaken]
        simp

/- Every kind that is asked for is taken in the end. -/
theorem mem_kinds_enrollAll
    {registry : Registry S P K}
    {calls : List (Registration S P K)}
    {kind : Option K} :
    kind ∈ (registry.enrollAll calls).kinds ↔
      kind ∈ registry.kinds ∨ ∃ call ∈ calls, call.kind = kind := by
  unfold enrollAll
  induction calls generalizing registry with
  | nil => simp
  | cons call calls ih =>
      rw [List.foldl_cons, ih]
      by_cases hTaken : call.kind ∈ registry.kinds
      · rw [enroll_of_mem hTaken]
        grind
      · rw [enroll_of_notMem hTaken]
        simp only [kinds, List.map_append, List.map_cons,
          List.map_nil, List.mem_append, List.mem_singleton,
          List.exists_mem_cons_iff, Registration.kind]
        grind

theorem nodup_kinds_enrollAll
    {registry : Registry S P K}
    (hDistinct : registry.kinds.Nodup)
    (calls : List (Registration S P K)) :
    (registry.enrollAll calls).kinds.Nodup := by
  unfold enrollAll
  induction calls generalizing registry with
  | nil => exact hDistinct
  | cons call calls ih =>
      rw [List.foldl_cons]
      apply ih
      by_cases hTaken : call.kind ∈ registry.kinds
      · rw [enroll_of_mem hTaken]
        exact hDistinct
      · rw [enroll_of_notMem hTaken]
        have hConcat := hDistinct.concat hTaken
        simpa [kinds, Registration.kind] using hConcat

/- Calls for kinds that are all different succeed. -/
theorem successes_of_nodup
    {registry : Registry S P K}
    {calls : List (Registration S P K)}
    (hDistinct :
      (registry.kinds ++ calls.map Registration.kind).Nodup) :
    registry.successes calls = calls := by
  induction calls generalizing registry with
  | nil => rfl
  | cons call calls ih =>
      have hNew : call.kind ∉ registry.kinds := by
        rw [List.nodup_append'] at hDistinct
        intro hTaken
        exact hDistinct.2.2 hTaken (by simp)
      rw [successes_cons_of_notMem hNew, ih]
      rw [enroll_of_notMem hNew]
      simpa [kinds, Registration.kind] using hDistinct

end Registry

------------------------------------------------------------
-- The Compiled Table
------------------------------------------------------------

/- The slots of the handlers of a row. -/
def Slots.ofRow
    (row : List (Handler S P K)) : Slots K :=
  row.zipIdx.foldl Slots.enter Slots.empty

/- The place of the handler for a kind in a row. -/
def placeOf?
    [DecidableEq K]
    (kind : Option K)
    (row : List (Handler S P K)) : Option Nat :=
  row.findIdx? (·.kind = kind)

namespace Slots

theorem ofRow_concat
    (row : List (Handler S P K))
    (handler : Handler S P K) :
    ofRow (row ++ [handler]) =
      (ofRow row).enter (handler, row.length) := by
  simp [ofRow, List.zipIdx_append]

variable [DecidableEq K]

theorem placeOf?_concat_self
    {row : List (Handler S P K)}
    {handler : Handler S P K}
    (hDistinct : ((row ++ [handler]).map (·.kind)).Nodup) :
    placeOf? handler.kind (row ++ [handler]) = some row.length := by
  have hNone : placeOf? handler.kind row = none := by
    unfold placeOf?
    rw [List.findIdx?_eq_none_iff]
    intro other hOther
    have hNe : other.kind ≠ handler.kind := by
      simp only [List.map_append, List.map_cons, List.map_nil,
        List.nodup_append] at hDistinct
      exact
        hDistinct.2.2 _ (List.mem_map_of_mem hOther) _
          (List.mem_singleton_self _)
    simpa using hNe
  unfold placeOf? at hNone ⊢
  simp [List.findIdx?_append, hNone]

theorem placeOf?_concat_of_ne
    (row : List (Handler S P K))
    {handler : Handler S P K}
    {kind : Option K}
    (hKind : handler.kind ≠ kind) :
    placeOf? kind (row ++ [handler]) = placeOf? kind row := by
  simp [placeOf?, List.findIdx?_append, hKind]

/-
  Every kind is entered with the place of its handler in the
  row, and so is the catch-all.
-/
theorem forKind_ofRow
    {row : List (Handler S P K)}
    (hDistinct : (row.map (·.kind)).Nodup)
    (kind : K) :
    (ofRow row).forKind kind =
      (placeOf? (some kind) row).toList ++
        (placeOf? none row).toList := by
  -- The row grows at its end, as the entries are made.
  suffices hBoth :
      ((ofRow row).index.find? (·.1 = kind)).map Prod.snd =
          placeOf? (some kind) row ∧
        (ofRow row).catchAll = placeOf? none row by
    rw [forKind, hBoth.1, hBoth.2]
  induction row using List.reverseRecOn with
  | nil => exact ⟨rfl, rfl⟩
  | append_singleton row handler ih =>
      have hBefore : (row.map (·.kind)).Nodup := by
        rw [List.map_append] at hDistinct
        exact hDistinct.of_append_left
      rcases ih hBefore with ⟨hIndex, hCatchAll⟩
      have hLast := placeOf?_concat_self hDistinct
      rw [ofRow_concat]
      cases hKind : handler.kind with
      | none =>
          rw [hKind] at hLast
          have hOther : handler.kind ≠ some kind := by simp [hKind]
          rw [placeOf?_concat_of_ne row hOther, hLast]
          simp only [enter, hKind]
          exact ⟨hIndex, trivial⟩
      | some own =>
          rw [hKind] at hLast
          have hOther : handler.kind ≠ none := by simp [hKind]
          rw [placeOf?_concat_of_ne row hOther]
          simp only [enter, hKind]
          refine ⟨?_, hCatchAll⟩
          by_cases hOwn : own = kind
          · rw [← hOwn, hLast]
            simp
          · have hNe : handler.kind ≠ some kind := by
              simp [hKind, hOwn]
            rw [placeOf?_concat_of_ne row hNe, ← hIndex]
            simp [hOwn]

end Slots

namespace Registry

/- The handlers of a component are those that are registered. -/
theorem ranked_perm
    (registry : Registry S P K) :
    registry.ranked.Perm registry.handlers := by
  have hSplit :=
    List.filter_append_perm (fun handler : Handler S P K =>
      handler.kind.isSome) registry.handlers
  simpa [ranked, Option.not_isSome] using hSplit

/-
  A handler comes before another in a row if it is no
  catch-all or if the other is one as well.
-/
def comesFirst
    (first second : Handler S P K) : Bool :=
  first.kind.isSome || second.kind.isNone

/- A sorted row has the handlers for kinds first. -/
theorem eq_ranked_of_pairwise
    (component : String)
    {row : List (Handler S P K)}
    (hSorted :
      row.Pairwise fun first second =>
        comesFirst first second = true) :
    (⟨component, row⟩ : Registry S P K).ranked = row := by
  unfold ranked
  dsimp only
  induction hSorted with
  | nil => rfl
  | cons hFirst hRest ih =>
      rename_i handler rest
      cases hKind : handler.kind with
      | some kind => simp [hKind, ih]
      | none =>
          have hAll : ∀ other ∈ rest, other.kind = none := by
            intro other hOther
            have hBehind := hFirst other hOther
            simpa [comesFirst, hKind] using hBehind
          have hTyped : rest.filter (·.kind.isSome) = [] := by
            rw [List.filter_eq_nil_iff]
            intro other hOther
            simp [hAll other hOther]
          rw [hTyped, List.nil_append] at ih
          simp [hKind, hTyped, ih]

/-
  To put the catch-all behind the others is to sort the
  handlers, without changing the order where both fit.
-/
theorem ranked_eq_mergeSort
    (registry : Registry S P K) :
    registry.ranked = registry.handlers.mergeSort comesFirst := by
  have hTrans :
      ∀ a b c : Handler S P K,
        comesFirst a b = true →
          comesFirst b c = true → comesFirst a c = true := by
    intro a b c
    unfold comesFirst
    cases a.kind <;> cases b.kind <;> cases c.kind <;> simp
  have hTotal :
      ∀ a b : Handler S P K,
        (comesFirst a b || comesFirst b a) = true := by
    intro a b
    unfold comesFirst
    cases a.kind <;> cases b.kind <;> rfl
  have hPerm := registry.handlers.mergeSort_perm comesFirst
  -- A part in which all are alike is found in the sorted row.
  have hPart :
      ∀ p : Handler S P K → Bool,
        (∀ a b, p a = true → p b = true →
          comesFirst a b = true) →
          (registry.handlers.mergeSort comesFirst).filter p =
            registry.handlers.filter p := by
    intro p hAlike
    have hPairwise :
        (registry.handlers.filter p).Pairwise fun first second =>
          comesFirst first second = true := by
      refine List.pairwise_of_forall_mem_list ?_
      intro a hA b hB
      exact
        hAlike a b (List.mem_filter.mp hA).2
          (List.mem_filter.mp hB).2
    have hSublist :=
      (List.sublist_mergeSort hTrans hTotal hPairwise
        List.filter_sublist).filter p
    rw [List.filter_filter] at hSublist
    simp only [Bool.and_self] at hSublist
    exact
      (hSublist.eq_of_length
        (hPerm.filter p).length_eq.symm).symm
  have hSorted :=
    List.pairwise_mergeSort hTrans hTotal registry.handlers
  rw [← eq_ranked_of_pairwise registry.component hSorted]
  unfold ranked
  rw [hPart, hPart]
  · intro a b _ hB
    simp [comesFirst, hB]
  · intro a b hA _
    simp [comesFirst, hA]

variable [DecidableEq K]

theorem find?_ranked
    (registry : Registry S P K)
    (kind : Option K) :
    registry.ranked.find? (·.kind = kind) =
      registry.lookup kind := by
  unfold ranked lookup
  rw [List.find?_append]
  cases kind with
  | none =>
      have hTyped :
          (registry.handlers.filter (·.kind.isSome)).find?
            (·.kind = none) = none := by
        rw [List.find?_eq_none]
        intro handler hHandler hKind
        have hSome := (List.mem_filter.mp hHandler).2
        rw [of_decide_eq_true hKind] at hSome
        cases hSome
      rw [hTyped, Option.none_or, List.find?_filter]
      congr 1
      funext handler
      simp
  | some kind =>
      have hGeneral :
          (registry.handlers.filter (·.kind.isNone)).find?
            (·.kind = some kind) = none := by
        rw [List.find?_eq_none]
        intro handler hHandler hKind
        have hNone := (List.mem_filter.mp hHandler).2
        rw [of_decide_eq_true hKind] at hNone
        cases hNone
      rw [hGeneral, Option.or_none, List.find?_filter]
      congr 1
      funext handler
      cases handler.kind <;> simp

/-
  The table offers a payload to the handler for its kind and
  to the catch-all after that.
-/
theorem candidates_compile
    {registry : Registry S P K}
    (hDistinct : registry.kinds.Nodup)
    (kind : K) :
    registry.compile.candidates kind =
      (registry.lookup (some kind)).toList ++
        (registry.lookup none).toList := by
  have hRanked : (registry.ranked.map (·.kind)).Nodup :=
    (registry.ranked_perm.map _).nodup_iff.mpr hDistinct
  have hSlots :
      registry.compile.slots.forKind kind =
        (placeOf? (some kind) registry.ranked).toList ++
          (placeOf? none registry.ranked).toList :=
    Slots.forKind_ofRow hRanked kind
  have hFound :
      ∀ key : Option K,
        (placeOf? key registry.ranked).toList.filterMap
            (registry.ranked[·]?) =
          (registry.lookup key).toList := by
    intro key
    rw [← find?_ranked, List.find?_eq_bind_findIdx?_getElem?]
    change _ = ((placeOf? key registry.ranked).bind _).toList
    cases placeOf? key registry.ranked with
    | none => rfl
    | some slot =>
        cases hAt : registry.ranked[slot]? <;> simp [hAt]
  unfold Dispatcher.candidates
  rw [hSlots, List.filterMap_append]
  exact congrArg₂ _ (hFound _) (hFound _)

/- No slot points beside the row of handlers. -/
theorem lt_of_mem_forKind
    {registry : Registry S P K}
    (hDistinct : registry.kinds.Nodup)
    {kind : K}
    {slot : Nat}
    (hSlot : slot ∈ registry.compile.slots.forKind kind) :
    slot < registry.compile.handlers.length := by
  have hRanked : (registry.ranked.map (·.kind)).Nodup :=
    (registry.ranked_perm.map _).nodup_iff.mpr hDistinct
  have hSlots :
      registry.compile.slots.forKind kind =
        (placeOf? (some kind) registry.ranked).toList ++
          (placeOf? none registry.ranked).toList :=
    Slots.forKind_ofRow hRanked kind
  rw [hSlots] at hSlot
  simp only [List.mem_append, Option.mem_toList] at hSlot
  rcases hSlot with hIndex | hIndex
  · exact (List.findIdx?_eq_some_iff_getElem.mp hIndex).1
  · exact (List.findIdx?_eq_some_iff_getElem.mp hIndex).1

end Registry

------------------------------------------------------------
-- Recipients
------------------------------------------------------------

/- Who gets a message in the end, and what he gets. -/
inductive Recipient (S P : Type) : Type 1 where
  | specific {T : Type}
      (react : S → Envelope T → Reaction S P)
      (message : Envelope T)
  | general
      (react : S → Envelope P → Reaction S P)
      (message : Envelope P)
  | sink (message : Envelope P)

/- What comes of a message with its recipient. -/
def Recipient.serve
    (state : S) :
    Recipient S P → Except (Envelope P) (Reaction S P)
| specific react message => .ok (react state message)
| general react message => .ok (react state message)
| sink message => .error message

/- Two successful calls for one kind are one call. -/
theorem eq_of_kind_eq
    {calls : List (Registration S P K)}
    (hDistinct : (calls.map Registration.kind).Nodup)
    {first second : Registration S P K}
    (hFirst : first ∈ calls)
    (hSecond : second ∈ calls)
    (hKind : first.kind = second.kind) :
    first = second :=
  List.inj_on_of_nodup_map hDistinct hFirst hSecond hKind

section Recipients

variable [Payload P K]
variable {calls : List (Registration S P K)}
variable {envelope : Envelope P}

/-
  No handler for the kind of a payload takes a message, and
  in this form it goes on: as it is if there is none, and
  otherwise as the variant of the handler gave it back.
-/
inductive IsPassedOn
    (calls : List (Registration S P K))
    (envelope : Envelope P) :
    Envelope P → Prop where
  | unclaimed
      (hNone :
        ∀ call ∈ calls,
          call.kind ≠ some (Payload.kind envelope.payload)) :
      IsPassedOn calls envelope envelope
  | unmatched {T : Type}
      {variant : Variant P K T}
      {typeName : String}
      {react : S → Envelope T → Reaction S P}
      {payload : P}
      (hCall : .typed variant typeName react ∈ calls)
      (hKind : variant.kind = Payload.kind envelope.payload)
      (hBack :
        variant.extract envelope.payload = .error payload) :
      IsPassedOn calls envelope ⟨envelope.header, payload⟩

/-
  Who gets a message if the given calls were successful: the
  handler for the kind of its payload, which gets what the
  payload was made of under the same header, or else the
  catch-all, or else the sink.
-/
inductive IsHandedTo
    (calls : List (Registration S P K))
    (envelope : Envelope P) :
    Recipient S P → Prop where
  | specific {T : Type}
      {variant : Variant P K T}
      {typeName : String}
      {react : S → Envelope T → Reaction S P}
      {value : T}
      (hCall : .typed variant typeName react ∈ calls)
      (hKind : variant.kind = Payload.kind envelope.payload)
      (hTakes : variant.extract envelope.payload = .ok value) :
      IsHandedTo calls envelope
        (.specific react ⟨envelope.header, value⟩)
  | general
      {typeName : String}
      {react : S → Envelope P → Reaction S P}
      {message : Envelope P}
      (hPassed : IsPassedOn calls envelope message)
      (hCall : .catchAll typeName react ∈ calls) :
      IsHandedTo calls envelope (.general react message)
  | sink
      {message : Envelope P}
      (hPassed : IsPassedOn calls envelope message)
      (hNone : ∀ call ∈ calls, call.kind ≠ none) :
      IsHandedTo calls envelope (.sink message)

/- A message is passed on in one form only. -/
theorem IsPassedOn.unique
    (hDistinct : (calls.map Registration.kind).Nodup)
    {first second : Envelope P}
    (hFirst : IsPassedOn calls envelope first)
    (hSecond : IsPassedOn calls envelope second) :
    first = second := by
  cases hFirst with
  | unclaimed hNone =>
      cases hSecond with
      | unclaimed _ => rfl
      | unmatched hCall hKind _ =>
          exact absurd (congrArg some hKind) (hNone _ hCall)
  | unmatched hCall hKind hBack =>
      cases hSecond with
      | unclaimed hNone =>
          exact absurd (congrArg some hKind) (hNone _ hCall)
      | unmatched hOther hOtherKind hOtherBack =>
          have hKinds := congrArg some (hKind.trans hOtherKind.symm)
          cases eq_of_kind_eq hDistinct hCall hOther hKinds
          cases hBack.symm.trans hOtherBack
          rfl

/- A message that a handler takes is not passed on. -/
theorem IsPassedOn.not_takes
    (hDistinct : (calls.map Registration.kind).Nodup)
    {message : Envelope P}
    (hPassed : IsPassedOn calls envelope message)
    {variant : Variant P K T}
    {typeName : String}
    {react : S → Envelope T → Reaction S P}
    {value : T}
    (hCall : .typed variant typeName react ∈ calls)
    (hKind : variant.kind = Payload.kind envelope.payload) :
    variant.extract envelope.payload ≠ .ok value := by
  intro hTakes
  cases hPassed with
  | unclaimed hNone =>
      exact absurd (congrArg some hKind) (hNone _ hCall)
  | unmatched hOther hOtherKind hBack =>
      have hKinds := congrArg some (hKind.trans hOtherKind.symm)
      cases eq_of_kind_eq hDistinct hCall hOther hKinds
      cases hTakes.symm.trans hBack

/- A message is handed to one recipient only. -/
theorem IsHandedTo.unique
    (hDistinct : (calls.map Registration.kind).Nodup)
    {first second : Recipient S P}
    (hFirst : IsHandedTo calls envelope first)
    (hSecond : IsHandedTo calls envelope second) :
    first = second := by
  cases hFirst with
  | specific hCall hKind hTakes =>
      cases hSecond with
      | specific hOther hOtherKind hOtherTakes =>
          have hKinds := congrArg some (hKind.trans hOtherKind.symm)
          cases eq_of_kind_eq hDistinct hCall hOther hKinds
          cases hTakes.symm.trans hOtherTakes
          rfl
      | general hPassed _ =>
          exact
            absurd hTakes (hPassed.not_takes hDistinct hCall hKind)
      | sink hPassed _ =>
          exact
            absurd hTakes (hPassed.not_takes hDistinct hCall hKind)
  | general hPassed hCall =>
      cases hSecond with
      | specific hOther hKind hTakes =>
          exact
            absurd hTakes (hPassed.not_takes hDistinct hOther hKind)
      | general hOtherPassed hOther =>
          cases eq_of_kind_eq hDistinct hCall hOther rfl
          cases hPassed.unique hDistinct hOtherPassed
          rfl
      | sink _ hNone => exact absurd rfl (hNone _ hCall)
  | sink hPassed hNone =>
      cases hSecond with
      | specific hOther hKind hTakes =>
          exact
            absurd hTakes (hPassed.not_takes hDistinct hOther hKind)
      | general _ hOther => exact absurd rfl (hNone _ hOther)
      | sink hOtherPassed _ =>
          cases hPassed.unique hDistinct hOtherPassed
          rfl

/- In a faithful family messages are passed on as they are. -/
theorem IsPassedOn.unclaimed_of_isFaithful
    (hFaithful : ∀ call ∈ calls, call.IsFaithful)
    {message : Envelope P}
    (hPassed : IsPassedOn calls envelope message) :
    message = envelope ∧
      ∀ call ∈ calls,
        call.kind ≠ some (Payload.kind envelope.payload) := by
  cases hPassed with
  | unclaimed hNone => exact ⟨rfl, hNone⟩
  | unmatched hCall hKind hBack =>
      rcases
        Variant.IsFaithful.exists_extract (hFaithful _ hCall)
          hKind with
        ⟨value, hTakes, _⟩
      cases hTakes.symm.trans hBack

end Recipients

namespace Registry

section Compiled

variable {component : String}
variable {calls : List (Registration S P K)}

/- The table of handlers that were registered by these calls. -/
theorem candidates_of_calls
    [DecidableEq K]
    (hDistinct : (calls.map Registration.kind).Nodup)
    (kind : K) :
    (⟨component, calls.map Registration.handler⟩ :
        Registry S P K).compile.candidates kind =
      ((calls.find? (·.kind = some kind)).toList ++
        (calls.find? (·.kind = none)).toList).map
          Registration.handler := by
  have hKinds := kinds_of_calls component calls
  have hLookup :
      ∀ key : Option K,
        ((⟨component, calls.map Registration.handler⟩ :
          Registry S P K).lookup key).toList =
          (calls.find? (·.kind = key)).toList.map
            Registration.handler := by
    intro key
    unfold lookup
    rw [List.find?_map]
    change
      ((calls.find? (·.kind = key)).map
        Registration.handler).toList = _
    cases calls.find? (·.kind = key) <;> rfl
  rw [candidates_compile (hKinds ▸ hDistinct), hLookup, hLookup,
    List.map_append]

variable [Payload P K]
variable {envelope : Envelope P}

/- What is passed on is offered to the catch-all, if there is one. -/
theorem exists_isHandedTo_of_isPassedOn
    {message : Envelope P}
    (hPassed : IsPassedOn calls envelope message) :
    ∃ recipient,
      IsHandedTo calls envelope recipient ∧
        ∀ state,
          Dispatcher.offer state
              ((calls.find? (·.kind = none)).toList.map
                Registration.handler) message =
            recipient.serve state := by
  cases hFind : calls.find? (·.kind = none) with
  | none =>
      refine ⟨.sink message, .sink hPassed ?_, fun _ => rfl⟩
      intro call hCall hKind
      exact
        List.find?_eq_none.mp hFind call hCall (by simpa using hKind)
  | some call =>
      have hKind : call.kind = none := by
        simpa using List.find?_some hFind
      have hCall := List.mem_of_find?_eq_some hFind
      cases call with
      | typed variant typeName react => cases hKind
      | catchAll typeName react =>
          exact
            ⟨.general react message, .general hPassed hCall,
              fun _ => rfl⟩

/-
  Every message is handed to somebody, and what comes of it
  is what he makes of it.
-/
theorem exists_isHandedTo
    [DecidableEq K]
    (component : String)
    (hDistinct : (calls.map Registration.kind).Nodup)
    (envelope : Envelope P) :
    ∃ recipient,
      IsHandedTo calls envelope recipient ∧
        ∀ state,
          (⟨component, calls.map Registration.handler⟩ :
              Registry S P K).dispatch state envelope =
            recipient.serve state := by
  unfold dispatch Dispatcher.dispatch
  simp only [candidates_of_calls hDistinct, List.map_append]
  cases hFind :
      calls.find? (·.kind = some (Payload.kind envelope.payload)) with
  | none =>
      refine exists_isHandedTo_of_isPassedOn (.unclaimed ?_)
      intro call hCall hKind
      exact
        List.find?_eq_none.mp hFind call hCall (by simpa using hKind)
  | some call =>
      have hKind :
          call.kind = some (Payload.kind envelope.payload) := by
        simpa using List.find?_some hFind
      have hCall := List.mem_of_find?_eq_some hFind
      cases call with
      | catchAll typeName react => cases hKind
      | typed variant typeName react =>
          have hOwn := Option.some.inj hKind
          cases hExtract : variant.extract envelope.payload with
          | ok value =>
              refine
                ⟨_, .specific hCall hOwn hExtract, fun state => ?_⟩
              simp [Dispatcher.offer, Registration.handler,
                Handler.typed, Envelope.tryMap, hExtract,
                Recipient.serve, Except.map]
          | error payload =>
              rcases
                exists_isHandedTo_of_isPassedOn
                  (.unmatched hCall hOwn hExtract) with
                ⟨recipient, hHanded, hServe⟩
              refine ⟨recipient, hHanded, fun state => ?_⟩
              rw [← hServe state]
              simp [Dispatcher.offer, Registration.handler,
                Handler.typed, Envelope.tryMap, hExtract,
                Except.map]

end Compiled

------------------------------------------------------------
-- Routing
------------------------------------------------------------

variable [DecidableEq K]

theorem enrollAll_empty
    (component : String)
    (calls : List (Registration S P K)) :
    (empty component).enrollAll calls =
      ⟨component,
        ((empty component).successes calls).map
          Registration.handler⟩ := by
  rw [enrollAll_eq]
  rfl

theorem nodup_kinds_successes
    (component : String)
    (calls : List (Registration S P K)) :
    (((empty component).successes calls).map
      Registration.kind).Nodup := by
  have hEmpty :
      (empty component : Registry S P K).kinds.Nodup :=
    List.nodup_nil
  have hKinds := nodup_kinds_enrollAll hEmpty calls
  rw [enrollAll_empty, kinds_of_calls] at hKinds
  exact hKinds

theorem mem_of_mem_successes
    {registry : Registry S P K}
    {calls : List (Registration S P K)}
    {call : Registration S P K}
    (hCall : call ∈ registry.successes calls) :
    call ∈ calls := by
  induction calls generalizing registry with
  | nil => cases hCall
  | cons first calls ih =>
      by_cases hTaken : first.kind ∈ registry.kinds
      · rw [successes_cons_of_mem hTaken] at hCall
        exact List.mem_cons_of_mem first (ih hCall)
      · rw [successes_cons_of_notMem hTaken] at hCall
        rcases List.mem_cons.mp hCall with rfl | hRest
        · exact List.mem_cons_self
        · exact List.mem_cons_of_mem first (ih hRest)

end Registry

/-
  What the handlers of a component promise of messages, if
  these calls are made to register them.

  A call for a kind that was asked for before is refused and
  changes nothing. Every slot of the table has a handler.
  Each message has exactly one recipient, and what comes of
  the message is what the recipient makes of it.

  If the variants of the handlers are faithful, a message
  never comes back from a handler: the handler for the kind
  of its payload gets what the payload was made of, and the
  catch-all and the sink get the message as it is. In any
  other order the same calls lead to the same recipients.
-/
structure RoutesMessages
    [DecidableEq K]
    [Payload P K]
    (component : String)
    (calls : List (Registration S P K)) : Prop where
  refuses :
    ∀ before call after,
      calls = before ++ call :: after →
        (((Registry.empty component).enrollAll before).insert
              call.handler =
            .error ⟨component, call.handler.typeName⟩ ↔
          ∃ earlier ∈ before, earlier.kind = call.kind) ∧
        ((∃ earlier ∈ before, earlier.kind = call.kind) →
          (Registry.empty component).enrollAll
              (before ++ [call]) =
            (Registry.empty component).enrollAll before)
  slots :
    ∀ kind,
      ∀ slot ∈
          ((Registry.empty component).enrollAll
            calls).compile.slots.forKind kind,
        slot <
          ((Registry.empty component).enrollAll
            calls).compile.handlers.length
  recipient :
    ∀ envelope : Envelope P,
      ∃ recipient,
        IsHandedTo ((Registry.empty component).successes calls)
            envelope recipient ∧
          (∀ other,
            IsHandedTo ((Registry.empty component).successes calls)
                envelope other →
              other = recipient) ∧
            ∀ state,
              ((Registry.empty component).enrollAll
                  calls).dispatch state envelope =
                recipient.serve state
  faithful :
    (∀ call ∈ calls, call.IsFaithful) →
      ∀ envelope : Envelope P,
        (∀ {T : Type}
          (variant : Variant P K T)
          (typeName : String)
          (react : S → Envelope T → Reaction S P),
          .typed variant typeName react ∈
              (Registry.empty component).successes calls →
            variant.kind = Payload.kind envelope.payload →
              ∃ value,
                variant.embed value = envelope.payload ∧
                  IsHandedTo
                    ((Registry.empty component).successes calls)
                    envelope
                    (.specific react ⟨envelope.header, value⟩)) ∧
          ∀ message,
            IsPassedOn ((Registry.empty component).successes calls)
                envelope message →
              message = envelope ∧
                ∀ call ∈ (Registry.empty component).successes calls,
                  call.kind ≠
                    some (Payload.kind envelope.payload)
  anyOrder :
    ∀ others,
      others.Perm ((Registry.empty component).successes calls) →
        (Registry.empty component).successes others = others ∧
          ∀ state (envelope : Envelope P),
            ((Registry.empty component).enrollAll others).dispatch
                state envelope =
              ((Registry.empty component).enrollAll calls).dispatch
                state envelope

/- Recipients depend on which calls succeeded, not on their order. -/
theorem IsHandedTo.perm
    [Payload P K]
    {calls others : List (Registration S P K)}
    (hPerm : others.Perm calls)
    {envelope : Envelope P}
    {recipient : Recipient S P}
    (hHanded : IsHandedTo others envelope recipient) :
    IsHandedTo calls envelope recipient := by
  have hPassedOn :
      ∀ {message},
        IsPassedOn others envelope message →
          IsPassedOn calls envelope message := by
    intro message hPassed
    cases hPassed with
    | unclaimed hNone =>
        exact
          .unclaimed fun call hCall =>
            hNone call (hPerm.mem_iff.mpr hCall)
    | unmatched hCall hKind hBack =>
        exact .unmatched (hPerm.mem_iff.mp hCall) hKind hBack
  cases hHanded with
  | specific hCall hKind hTakes =>
      exact .specific (hPerm.mem_iff.mp hCall) hKind hTakes
  | general hPassed hCall =>
      exact .general (hPassedOn hPassed) (hPerm.mem_iff.mp hCall)
  | sink hPassed hNone =>
      exact
        .sink (hPassedOn hPassed) fun call hCall =>
          hNone call (hPerm.mem_iff.mpr hCall)

/-
  Every component keeps this promise, and the variants of a
  family that is declared by its types are all faithful.
-/
theorem routesMessages
    [DecidableEq K]
    [Payload P K]
    (component : String)
    (calls : List (Registration S P K)) :
    RoutesMessages component calls ∧
      ∀ (name : K → String) (Member : K → Type) (kind : K),
        (Union.variant kind :
          Variant (Union name Member) K _).IsFaithful := by
  refine ⟨?_, fun _ _ => Union.isFaithful_variant⟩
  have hDistinct := Registry.nodup_kinds_successes component calls
  have hTable := Registry.enrollAll_empty component calls
  exact
    { refuses := by
        rintro before call after -
        have hTaken :
            call.kind ∈
                ((Registry.empty component).enrollAll
                  before).kinds ↔
              ∃ earlier ∈ before, earlier.kind = call.kind := by
          rw [Registry.mem_kinds_enrollAll]
          simp [Registry.empty, Registry.kinds]
        refine ⟨⟨?_, ?_⟩, ?_⟩
        · intro hRefused
          by_contra hNew
          rw [← hTaken] at hNew
          rw [Registry.insert_of_notMem hNew] at hRefused
          cases hRefused
        · intro hEarlier
          have hInsert :=
            Registry.insert_of_mem (hTaken.mpr hEarlier)
          rw [Registry.enrollAll_empty] at hInsert ⊢
          exact hInsert
        · intro hEarlier
          have hEnroll :=
            Registry.enroll_of_mem (hTaken.mpr hEarlier)
          unfold Registry.enrollAll at hEnroll ⊢
          rw [List.foldl_append]
          exact hEnroll
      slots := by
        intro kind slot hSlot
        refine Registry.lt_of_mem_forKind ?_ hSlot
        rw [hTable, Registry.kinds_of_calls]
        exact hDistinct
      recipient := by
        intro envelope
        rcases
          Registry.exists_isHandedTo component hDistinct
            envelope with
          ⟨recipient, hHanded, hServe⟩
        rw [hTable]
        exact
          ⟨recipient, hHanded,
            fun other hOther => hOther.unique hDistinct hHanded,
            hServe⟩
      faithful := by
        intro hCalls envelope
        have hFaithful :
            ∀ call ∈ (Registry.empty component).successes calls,
              call.IsFaithful :=
          fun call hCall =>
            hCalls call (Registry.mem_of_mem_successes hCall)
        refine ⟨?_, fun message hPassed =>
          hPassed.unclaimed_of_isFaithful hFaithful⟩
        intro T variant typeName react hCall hKind
        rcases
          Variant.IsFaithful.exists_extract (hFaithful _ hCall)
            hKind with
          ⟨value, hTakes, hEmbed⟩
        exact ⟨value, hEmbed, .specific hCall hKind hTakes⟩
      anyOrder := by
        intro others hPerm
        have hOthers :
            (others.map Registration.kind).Nodup :=
          (hPerm.map _).nodup_iff.mpr hDistinct
        have hSuccesses :
            (Registry.empty component).successes others =
              others :=
          Registry.successes_of_nodup hOthers
        refine ⟨hSuccesses, fun state envelope => ?_⟩
        rw [hTable, Registry.enrollAll_empty, hSuccesses]
        rcases
          Registry.exists_isHandedTo component hDistinct
            envelope with
          ⟨recipient, hHanded, hServe⟩
        rcases
          Registry.exists_isHandedTo component hOthers
            envelope with
          ⟨other, hOther, hOtherServe⟩
        have hSame := (hOther.perm hPerm).unique hDistinct hHanded
        rw [hServe, hOtherServe, hSame] }

/-
  A variant that declines every payload of its kind: the
  message is unhandled, although a handler is registered.
-/
theorem impostor_is_passed_over :
    let registry : Registry (List String) Probe ProbeKind :=
      (Registry.empty "desk").enrollAll
        [.typed Probe.never "Liar" fun _ envelope =>
          envelope.payload.elim]
    let message : Envelope Probe :=
      .command ⟨Uuid.ofNat 1, ⟨1, 0⟩⟩ ⟨.ping, 1⟩
    (registry.lookup (some (Payload.kind message.payload))).isSome =
        true ∧
      registry.dispatch [] message = .error message := by
  exact ⟨rfl, rfl⟩

end OrderDesk
