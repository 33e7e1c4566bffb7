import OrderDesk.Json.Reader
import OrderDesk.Proofs.Json.Token

/-
  This file proves that values are read back from their
  compact text. The text of a value is the text of its
  tokens; the text is cut into these tokens again, and the
  tokens are put together to the value.

  Key definitions include:
    * `Json.IsProper`
    * `Json.tokens`

  Key theorems include:
    * `Json.scan_toChars`
    * `Json.run_tokens`
    * `Json.Document.ofText_toText`
-/

namespace OrderDesk

namespace Json

------------------------------------------------------------
-- Proper Values
------------------------------------------------------------

mutual

/-
  Every bracket is closed, every string and key has a text,
  and every number is written as JSON has it.
-/
def IsProper :
    Json → Prop
| null => True
| bool _ => True
| number t => t.IsProper
| string s => s.isSome = true
| array items closed => closed = true ∧ ItemsProper items
| object members closed => closed = true ∧ MembersProper members

/- Every item is proper. -/
def ItemsProper :
    List Json → Prop
| [] => True
| item :: rest => item.IsProper ∧ ItemsProper rest

/- Every member is proper. -/
def MembersProper :
    List (Option String × Json) → Prop
| [] => True
| (key, value) :: rest =>
    key.isSome = true ∧ value.IsProper ∧ MembersProper rest

end

mutual

/- The tokens that the text of a value consists of. -/
def tokens :
    Json → List Token
| null => [.null]
| bool b => [.bool b]
| number t => [.number t]
| string s => [.string s]
| array items _ => .openArray :: (itemTokens items ++ [.closeArray])
| object members _ =>
    .openObject :: (memberTokens members ++ [.closeObject])

/- The tokens of items, with commas between them. -/
def itemTokens :
    List Json → List Token
| [] => []
| [item] => item.tokens
| item :: rest => item.tokens ++ .comma :: itemTokens rest

/- The tokens of members, with commas between them. -/
def memberTokens :
    List (Option String × Json) → List Token
| [] => []
| [(key, value)] => .string key :: .colon :: value.tokens
| (key, value) :: rest =>
    .string key :: .colon :: (value.tokens ++
      .comma :: memberTokens rest)

end

------------------------------------------------------------
-- Cutting A Text Into Tokens
------------------------------------------------------------

namespace Token

/- Tokens in front of what else a text is cut into. -/
def before
    (ts : List Token)
    (scanned : List Token × Bool) : List Token × Bool :=
  (ts ++ scanned.1, scanned.2)

theorem scan_cons
    (t : Token)
    (c : Char)
    {cs rest : List Char}
    (hBlank : isBlank c = false)
    (hRead : read? (c :: cs) = some (t, rest)) :
    scan (c :: cs) = before [t] (scan rest) := by
  refine scan_of_read? ?_ hRead
  intro d hHead
  cases hHead
  exact hBlank

theorem scan_quote
    (s : String)
    (rest : List Char) :
    scan (quote s ++ rest) =
      before [string (some s)] (scan rest) := by
  have hText :
      quote s ++ rest =
        '"' :: (s.toList.flatMap escape ++ '"' :: rest) := by
    unfold quote
    simp
  rw [hText]
  refine scan_of_read? ?_ (readString?_quote s rest)
  intro d hHead
  cases hHead
  rfl

/- A numeral comes first. -/
theorem scan_numeral
    {t : Numeral}
    (hProper : t.IsProper)
    {rest : List Char}
    (hRest : Numeral.EndsBefore rest) :
    scan (t.toChars ++ rest) = before [number t] (scan rest) := by
  have hRead := Numeral.read?_toChars hProper hRest
  rcases read?_of_numeral hRead with ⟨hBlank, hToken⟩
  exact scan_of_read? hBlank hToken

end Token

/- A comma does not go on with a numeral. -/
theorem endsBefore_comma
    (rest : List Char) :
    Numeral.EndsBefore (',' :: rest) := by
  intro c hHead
  cases hHead
  rfl

/- A closing bracket does not go on with a numeral. -/
theorem endsBefore_bracket
    (rest : List Char) :
    Numeral.EndsBefore (']' :: rest) := by
  intro c hHead
  cases hHead
  rfl

/- A closing brace does not go on with a numeral. -/
theorem endsBefore_brace
    (rest : List Char) :
    Numeral.EndsBefore ('}' :: rest) := by
  intro c hHead
  cases hHead
  rfl

open Token in
mutual

/- The text of a value is cut into its tokens. -/
theorem scan_toChars
    (j : Json)
    (hProper : j.IsProper)
    (rest : List Char)
    (hRest : Numeral.EndsBefore rest) :
    scan (j.toChars ++ rest) = before j.tokens (scan rest) := by
  cases j with
  | null => exact scan_cons .null 'n' rfl rfl
  | bool b =>
      cases b with
      | true => exact scan_cons (.bool true) 't' rfl rfl
      | false => exact scan_cons (.bool false) 'f' rfl rfl
  | number t => exact scan_numeral hProper hRest
  | string s =>
      cases s with
      | none => cases hProper
      | some s => exact scan_quote s rest
  | array items closed =>
      have hItems :=
        scan_itemChars items hProper.2 (']' :: rest)
          (endsBefore_bracket rest)
      rw [toChars, tokens, List.cons_append,
        scan_cons .openArray '[' rfl rfl, List.append_assoc]
      change before _ (scan (_ ++ ']' :: rest)) = _
      rw [hItems, scan_cons .closeArray ']' rfl rfl]
      simp [before]
  | object members closed =>
      have hMembers :=
        scan_memberChars members hProper.2 ('}' :: rest)
          (endsBefore_brace rest)
      rw [toChars, tokens, List.cons_append,
        scan_cons .openObject '{' rfl rfl, List.append_assoc]
      change before _ (scan (_ ++ '}' :: rest)) = _
      rw [hMembers, scan_cons .closeObject '}' rfl rfl]
      simp [before]

theorem scan_itemChars
    (items : List Json)
    (hProper : ItemsProper items)
    (rest : List Char)
    (hRest : Numeral.EndsBefore rest) :
    scan (itemChars items ++ rest) =
      before (itemTokens items) (scan rest) := by
  match items with
  | [] => rfl
  | [item] => exact scan_toChars item hProper.1 rest hRest
  | item :: next :: items =>
      have hItem :=
        scan_toChars item hProper.1
          (',' :: (itemChars (next :: items) ++ rest))
          (endsBefore_comma _)
      have hItems :=
        scan_itemChars (next :: items) hProper.2 rest hRest
      rw [itemChars, itemTokens, List.append_assoc,
        List.cons_append, hItem, scan_cons .comma ',' rfl rfl,
        hItems]
      · simp [before]
      all_goals exact nofun

theorem scan_memberChars
    (members : List (Option String × Json))
    (hProper : MembersProper members)
    (rest : List Char)
    (hRest : Numeral.EndsBefore rest) :
    scan (memberChars members ++ rest) =
      before (memberTokens members) (scan rest) := by
  match members with
  | [] => rfl
  | [(some key, value)] =>
      have hValue := scan_toChars value hProper.2.1 rest hRest
      rw [memberChars, memberTokens, List.append_assoc]
      change scan (quote key ++ ':' :: (value.toChars ++ rest)) = _
      rw [scan_quote, scan_cons .colon ':' rfl rfl, hValue]
      simp [before]
  | (some key, value) :: next :: members =>
      have hValue :=
        scan_toChars value hProper.2.1
          (',' :: (memberChars (next :: members) ++ rest))
          (endsBefore_comma _)
      have hMembers :=
        scan_memberChars (next :: members) hProper.2.2 rest hRest
      rw [memberChars, memberTokens, List.append_assoc]
      · change
          scan (quote key ++ ':' :: ((value.toChars ++ ',' ::
            memberChars (next :: members)) ++ rest)) = _
        rw [scan_quote, scan_cons .colon ':' rfl rfl,
          List.append_assoc, List.cons_append, hValue,
          scan_cons .comma ',' rfl rfl, hMembers]
        simp [before]
      all_goals exact nofun

end

------------------------------------------------------------
-- Putting Tokens Together
------------------------------------------------------------

open Reader in
mutual

/- The tokens of a value are put together to the value. -/
theorem run_tokens
    (j : Json)
    (hProper : j.IsProper)
    (stack : List Frame)
    (first : Bool)
    (ts : List Token) :
    (value stack first).run (j.tokens ++ ts) =
      (complete j stack).run ts := by
  cases j with
  | null => rfl
  | bool b => rfl
  | number t => rfl
  | string s => rfl
  | array items closed =>
      rcases hProper with ⟨rfl, hItems⟩
      rw [tokens, List.cons_append, List.append_assoc]
      cases items with
      | nil => rfl
      | cons item items =>
          exact
            run_itemTokens (item :: items) hItems nofun [] stack
              true ts
  | object members closed =>
      rcases hProper with ⟨rfl, hMembers⟩
      rw [tokens, List.cons_append, List.append_assoc]
      cases members with
      | nil => rfl
      | cons member members =>
          exact
            run_memberTokens (member :: members) hMembers nofun []
              stack true ts

/- The tokens of items are put together to an array. -/
theorem run_itemTokens
    (items : List Json)
    (hProper : ItemsProper items)
    (hItems : items ≠ [])
    (given : List Json)
    (stack : List Frame)
    (first : Bool)
    (ts : List Token) :
    (value (.array given :: stack) first).run
        (itemTokens items ++ .closeArray :: ts) =
      (complete (array (given.reverse ++ items) true)
        stack).run ts := by
  match items with
  | [item] =>
      have hItem :=
        run_tokens item hProper.1 (.array given :: stack) first
          (.closeArray :: ts)
      rw [itemTokens, hItem]
      change
        (complete (array (item :: given).reverse true) stack).run
            ts = _
      rw [List.reverse_cons]
  | item :: next :: items =>
      have hItem :=
        run_tokens item hProper.1 (.array given :: stack) first
          (.comma ::
            (itemTokens (next :: items) ++ .closeArray :: ts))
      have hItems :=
        run_itemTokens (next :: items) hProper.2 nofun
          (item :: given) stack false ts
      rw [itemTokens, List.append_assoc, List.cons_append, hItem]
      · change
          (value (.array (item :: given) :: stack) false).run _ = _
        rw [hItems, List.reverse_cons, List.append_assoc]
        rfl
      · exact nofun

/- The tokens of members are put together to an object. -/
theorem run_memberTokens
    (members : List (Option String × Json))
    (hProper : MembersProper members)
    (hMembers : members ≠ [])
    (given : List (Option String × Json))
    (stack : List Frame)
    (first : Bool)
    (ts : List Token) :
    (key stack given first).run
        (memberTokens members ++ .closeObject :: ts) =
      (complete (object (given.reverse ++ members) true)
        stack).run ts := by
  match members with
  | [(k, v)] =>
      have hValue :=
        run_tokens v hProper.2.1 (.object given k :: stack) false
          (.closeObject :: ts)
      rw [memberTokens, List.cons_append, List.cons_append]
      change (value (.object given k :: stack) false).run _ = _
      rw [hValue]
      change
        (complete (object ((k, v) :: given).reverse true)
            stack).run ts = _
      rw [List.reverse_cons]
  | (k, v) :: next :: members =>
      have hValue :=
        run_tokens v hProper.2.1 (.object given k :: stack) false
          (.comma ::
            (memberTokens (next :: members) ++ .closeObject :: ts))
      have hMembers :=
        run_memberTokens (next :: members) hProper.2.2 nofun
          ((k, v) :: given) stack false ts
      rw [memberTokens, List.cons_append, List.cons_append,
        List.append_assoc, List.cons_append]
      · change (value (.object given k :: stack) false).run _ = _
        rw [hValue]
        change (key stack ((k, v) :: given) false).run _ = _
        rw [hMembers, List.reverse_cons, List.append_assoc]
        rfl
      · exact nofun

end

------------------------------------------------------------
-- Documents
------------------------------------------------------------

/- A proper value is read back from its text, and nothing else. -/
theorem Document.ofText_toText
    {j : Json}
    (hProper : j.IsProper) :
    Document.ofText j.toText = ⟨some j, true⟩ := by
  have hEnds : Numeral.EndsBefore [] := nofun
  have hEmpty : Token.scan [] = ([], true) := by
    rw [Token.scan]
    rfl
  have hScan : Token.scan j.toChars = (j.tokens, true) := by
    have hRest := scan_toChars j hProper [] hEnds
    rw [List.append_nil, hEmpty] at hRest
    rw [hRest, Token.before, List.append_nil]
  have hRun : Reader.start.run j.tokens = (some j, true) := by
    have hRest := run_tokens j hProper [] false []
    rw [List.append_nil] at hRest
    exact hRest
  unfold Document.ofText toText Document.ofChars
  rw [String.toList_ofList, hScan]
  dsimp only
  rw [hRun]
  rfl

end Json

end OrderDesk
