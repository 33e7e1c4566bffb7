import Mathlib.Data.List.Nodup
import OrderDesk.Proofs.Json.RoundTrip
import OrderDesk.Wire.Decode

/-
  This file proves that the fields of a record are found
  again in the object that stands for it, and that decoding
  the text of a proper value is reading the value.

  Key theorems include:
    * `Json.isProper_record`
    * `Json.fields?_record`
    * `Wire.decode_toText`
-/

namespace OrderDesk

namespace Json

------------------------------------------------------------
-- Proper Records
------------------------------------------------------------

theorem isProper_text
    (s : String) :
    (text s).IsProper :=
  rfl

theorem text_ne_null
    (s : String) :
    text s ≠ null :=
  nofun

theorem text?_text
    (s : String) :
    (text s).text? = some s :=
  rfl

/- A value that may be absent is proper if it is there. -/
theorem isProper_nullable
    {α : Type}
    {encode : α → Json}
    (hEncode : ∀ a, (encode a).IsProper)
    (given : Option α) :
    (nullable encode given).IsProper := by
  cases given with
  | none => trivial
  | some a => exact hEncode a

/- A record of proper values is proper. -/
theorem isProper_record
    {members : List (String × Json)}
    (hMembers : ∀ member ∈ members, member.2.IsProper) :
    (record members).IsProper := by
  refine ⟨rfl, ?_⟩
  induction members with
  | nil => trivial
  | cons member members ih =>
      have hRest :
          ∀ member ∈ members, member.2.IsProper :=
        fun other hMem =>
          hMembers other (List.mem_cons_of_mem _ hMem)
      exact
        ⟨rfl, hMembers member List.mem_cons_self, ih hRest⟩

------------------------------------------------------------
-- Fields Of Records
------------------------------------------------------------

theorem lookup_eq_none
    {key : String}
    {members : List (String × Json)}
    (hKey : key ∉ members.map Prod.fst) :
    members.lookup key = none := by
  rw [List.lookup_eq_none_iff]
  intro member hMem
  rw [bne_iff_ne]
  rintro rfl
  exact hKey (List.mem_map_of_mem hMem)

/- Members with different keys that are fields are all known. -/
theorem known?_eq_some
    {names : List String}
    {members : List (String × Json)}
    (hNames : ∀ member ∈ members, member.1 ∈ names)
    (hDistinct : (members.map Prod.fst).Nodup) :
    known? names
        (members.map fun (key, value) => (some key, value)) =
      some members := by
  induction members with
  | nil => rfl
  | cons member members ih =>
      rcases member with ⟨key, value⟩
      rw [List.map_cons, List.nodup_cons] at hDistinct
      have hRest :
          known? names
              (members.map fun (key, value) => (some key, value)) =
            some members :=
        ih
          (fun other hMem =>
            hNames other (List.mem_cons_of_mem _ hMem))
          hDistinct.2
      have hKnown : key ∈ names :=
        hNames (key, value) List.mem_cons_self
      rw [List.map_cons, known?, hRest, Option.bind_some,
        if_neg (not_not_intro hKnown),
        lookup_eq_none hDistinct.1]
      rfl

theorem map_lookup
    {members : List (String × Json)}
    (hDistinct : (members.map Prod.fst).Nodup) :
    (members.map Prod.fst).map (fun name => members.lookup name) =
      members.map fun member => some member.2 := by
  rw [List.map_map]
  refine List.map_congr_left fun member hMem => ?_
  induction members with
  | nil => cases hMem
  | cons first members ih =>
      rw [List.map_cons, List.nodup_cons] at hDistinct
      rw [Function.comp_apply, List.lookup_cons]
      rcases List.mem_cons.mp hMem with rfl | hRest
      · rw [beq_self_eq_true]
      · have hOther : (member.1 == first.1) = false := by
          rw [beq_eq_false_iff_ne]
          intro hSame
          exact
            hDistinct.1 (hSame ▸ List.mem_map_of_mem hRest)
        rw [hOther]
        exact ih hDistinct.2 hRest

/- The fields of a record are the values of its members. -/
theorem fields?_record
    (members : List (String × Json))
    (hDistinct : (members.map Prod.fst).Nodup) :
    (record members).fields? (members.map Prod.fst) =
      some (members.map fun member => some member.2) := by
  have hKnown :=
    known?_eq_some
      (fun member hMem => List.mem_map_of_mem hMem) hDistinct
  unfold fields? record
  dsimp only
  rw [hKnown, Option.map_some, map_lookup hDistinct]

theorem optional?_nullable
    {α : Type}
    {encode : α → Json}
    {read : Json → Option α}
    (hEncode : ∀ a, encode a ≠ null)
    (given : Option α) :
    optional? read (some (nullable encode given)) =
      match given with
      | none => some none
      | some a => (read (encode a)).map some := by
  cases given with
  | none => rfl
  | some a =>
      have hNull := hEncode a
      unfold nullable optional?
      dsimp only
      cases hValue : encode a with
      | null => exact absurd hValue hNull
      | _ => rfl

end Json

------------------------------------------------------------
-- Decoding
------------------------------------------------------------

namespace Wire

/- To decode the text of a value is to read the value. -/
theorem decode_toText
    {α : Type}
    {j : Json}
    (hProper : j.IsProper)
    (read : Json → Except DecodeError α) :
    decode read j.toText = read j := by
  unfold decode
  rw [Json.Document.ofText_toText hProper]
  dsimp only
  cases read j <;> rfl

/- What is decoded is read from the value that the text holds. -/
theorem exists_of_decode
    {α : Type}
    {read : Json → Except DecodeError α}
    {s : String}
    {a : α}
    (hDecode : decode read s = .ok a) :
    ∃ j,
      (Json.Document.ofText s).root = some j ∧ read j = .ok a := by
  unfold decode at hDecode
  dsimp only at hDecode
  split at hDecode
  · cases hDecode
  · rename_i root hRoot
    refine ⟨root, hRoot, ?_⟩
    cases hRead : read root with
    | error e =>
        rw [hRead] at hDecode
        cases hDecode
    | ok other =>
        rw [hRead] at hDecode
        simp only [Except.bind] at hDecode
        split at hDecode
        · exact hDecode
        · cases hDecode

end Wire

end OrderDesk
