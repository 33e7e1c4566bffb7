import OrderDesk.Json.Token
import OrderDesk.Proofs.Text.Digits

/-
  This file proves that tokens are read back from their
  text: numerals digit by digit, and strings through their
  escapes.

  Key definitions include:
    * `Numeral.IsProper`
    * `Numeral.EndsBefore`

  Key theorems include:
    * `Numeral.read?_toChars`
    * `Json.Token.readString?_quote`
    * `Json.Token.scan_of_read?`
-/

namespace OrderDesk

------------------------------------------------------------
-- Numerals
------------------------------------------------------------

namespace Numeral

/-
  A numeral is written as JSON has it: with digits only, no
  zero in front of other digits, and at least one digit in
  an exponent.
-/
structure IsProper
    (t : Numeral) : Prop where
  whole : IsDigits t.whole
  nonempty : t.whole ≠ []
  leading : t.whole.head? = some '0' → t.whole = ['0']
  fraction : IsDigits t.fraction
  exponent :
    ∀ sign digits,
      t.exponent = some (sign, digits) →
        IsDigits digits ∧ digits ≠ []

/- The character may go on with a numeral. -/
def goesOn
    (c : Char) : Bool :=
  c.isDigit || c == '.' || c == 'e' || c == 'E'

/- What follows does not go on with a numeral. -/
abbrev EndsBefore
    (rest : List Char) : Prop :=
  NotBefore goesOn rest

theorem isDigit_eq :
    isDigit = Char.isDigit := by
  funext c
  exact isSome_digitValue? c

theorem takeWhile_isDigit
    {cs rest : List Char}
    (hDigits : IsDigits cs)
    (hRest : NotBefore Char.isDigit rest) :
    (cs ++ rest).takeWhile isDigit = cs ∧
      (cs ++ rest).dropWhile isDigit = rest := by
  rw [isDigit_eq]
  exact takeWhile_append_of_notBefore hDigits hRest

theorem EndsBefore.notBefore
    {rest : List Char}
    (hRest : EndsBefore rest) :
    NotBefore Char.isDigit rest := by
  intro c hHead
  have hStops := hRest c hHead
  unfold goesOn at hStops
  simp only [Bool.or_eq_false_iff] at hStops
  exact hStops.1.1.1

theorem readWhole?_append
    {t : Numeral}
    (hProper : t.IsProper)
    {rest : List Char}
    (hRest : NotBefore Char.isDigit rest) :
    readWhole? (t.whole ++ rest) = some (t.whole, rest) := by
  have hSplit := takeWhile_isDigit hProper.whole hRest
  have hLeading := hProper.leading
  have hNonempty := hProper.nonempty
  unfold readWhole?
  rw [hSplit.1, hSplit.2]
  split
  · contradiction
  · rename_i hZero
    rw [hZero]
  · rename_i hOther hZero
    rw [hZero] at hLeading
    exact absurd (List.cons.inj (hLeading rfl)).2 hOther
  · rfl

/- The fraction with its point, if there is a fraction. -/
def fractionPart
    (t : Numeral) : List Char :=
  if t.fraction.isEmpty then [] else '.' :: t.fraction

/- The exponent with its mark, if there is an exponent. -/
def exponentPart
    (t : Numeral) : List Char :=
  match t.exponent with
  | none => []
  | some (sign, digits) => 'e' :: (sign.toChars ++ digits)

theorem readFraction?_append
    {t : Numeral}
    (hProper : t.IsProper)
    {rest : List Char}
    (hRest : NotBefore (fun c => c.isDigit || c == '.') rest) :
    readFraction? (t.fractionPart ++ rest) =
      some (t.fraction, rest) := by
  have hDigits : NotBefore Char.isDigit rest := by
    intro c hHead
    exact (Bool.or_eq_false_iff.mp (hRest c hHead)).1
  unfold readFraction? fractionPart
  cases hFraction : t.fraction with
  | nil =>
      rw [List.isEmpty_nil, if_pos rfl, List.nil_append]
      split
      · have hPoint := hRest '.' rfl
        cases hPoint
      · rfl
  | cons c cs =>
      have hProperFraction := hProper.fraction
      rw [hFraction] at hProperFraction
      have hSplit := takeWhile_isDigit hProperFraction hDigits
      change
        (if ((c :: cs ++ rest).takeWhile isDigit).isEmpty then
            none
          else
            some
              ((c :: cs ++ rest).takeWhile isDigit,
                (c :: cs ++ rest).dropWhile isDigit)) = _
      rw [hSplit.1, hSplit.2]
      rfl

theorem readExponent?_append
    {t : Numeral}
    (hProper : t.IsProper)
    {rest : List Char}
    (hRest : EndsBefore rest) :
    readExponent? (t.exponentPart ++ rest) =
      some (t.exponent, rest) := by
  unfold readExponent? exponentPart
  cases hExponent : t.exponent with
  | none =>
      rw [List.nil_append]
      cases rest with
      | nil => rfl
      | cons c rest =>
          have hStops := hRest c rfl
          unfold goesOn at hStops
          simp only [Bool.or_eq_false_iff, beq_eq_false_iff_ne]
            at hStops
          dsimp only
          rw [if_neg]
          rintro (hMark | hMark)
          · exact hStops.1.2 hMark
          · exact hStops.2 hMark
  | some exponent =>
      rcases exponent with ⟨sign, digits⟩
      rcases hProper.exponent sign digits hExponent with
        ⟨hDigits, hNonempty⟩
      have hSplit := takeWhile_isDigit hDigits hRest.notBefore
      have hRead :
          ∀ sign,
            readExponentDigits? sign (digits ++ rest) =
              some (some (sign, digits), rest) := by
        intro sign
        unfold readExponentDigits?
        rw [hSplit.1, hSplit.2, if_neg (by simpa using hNonempty)]
      rw [List.cons_append]
      dsimp only
      rw [if_pos (.inl rfl)]
      cases sign with
      | plus => exact hRead .plus
      | minus => exact hRead .minus
      | unsigned =>
          rw [ExponentSign.toChars, List.nil_append,
            ← hRead .unsigned]
          cases digits with
          | nil => contradiction
          | cons d ds =>
              have hDigit := hDigits d List.mem_cons_self
              split
              · rename_i hEq
                cases hEq
                cases hDigit
              · rename_i hEq
                cases hEq
                cases hDigit
              · rfl

theorem notBefore_exponentPart
    (t : Numeral)
    {rest : List Char}
    (hRest : EndsBefore rest) :
    NotBefore (fun c => c.isDigit || c == '.')
      (t.exponentPart ++ rest) := by
  unfold exponentPart
  cases t.exponent with
  | none =>
      intro c hHead
      have hStops := hRest c hHead
      unfold goesOn at hStops
      simp only [Bool.or_eq_false_iff] at hStops ⊢
      exact hStops.1.1
  | some exponent =>
      intro c hHead
      cases hHead
      rfl

theorem notBefore_fractionPart
    (t : Numeral)
    {rest : List Char}
    (hRest : NotBefore (fun c => c.isDigit || c == '.') rest) :
    NotBefore Char.isDigit (t.fractionPart ++ rest) := by
  unfold fractionPart
  cases t.fraction.isEmpty with
  | true =>
      intro c hHead
      exact (Bool.or_eq_false_iff.mp (hRest c hHead)).1
  | false =>
      intro c hHead
      cases hHead
      rfl

/- A numeral is read back in front of something else. -/
theorem read?_toChars
    {t : Numeral}
    (hProper : t.IsProper)
    {rest : List Char}
    (hRest : EndsBefore rest) :
    read? (t.toChars ++ rest) = some (t, rest) := by
  have hExponent := readExponent?_append hProper hRest
  have hBeforeExponent := t.notBefore_exponentPart hRest
  have hFraction := readFraction?_append hProper hBeforeExponent
  have hWhole :=
    readWhole?_append hProper
      (t.notBefore_fractionPart hBeforeExponent)
  have hUnsigned :
      readUnsigned? t.negative
          (t.whole ++ (t.fractionPart ++ (t.exponentPart ++ rest))) =
        some (t, rest) := by
    unfold readUnsigned?
    rw [hWhole, Option.bind_some]
    dsimp only
    rw [hFraction, Option.bind_some]
    dsimp only
    rw [hExponent]
    rfl
  have hChars :
      t.toChars ++ rest =
        (if t.negative then ['-'] else []) ++
          (t.whole ++
            (t.fractionPart ++ (t.exponentPart ++ rest))) := by
    have hParts :
        t.toChars =
          (if t.negative then ['-'] else []) ++ t.whole ++
            t.fractionPart ++ t.exponentPart :=
      rfl
    rw [hParts]
    simp only [List.append_assoc]
  rw [hChars]
  unfold read?
  cases hNegative : t.negative with
  | true =>
      rw [hNegative] at hUnsigned
      exact hUnsigned
  | false =>
      rw [hNegative] at hUnsigned
      rw [if_neg Bool.false_ne_true, List.nil_append]
      split
      · rename_i hEq
        have hDigits := hProper.whole
        cases hCs : t.whole with
        | nil => exact absurd hCs hProper.nonempty
        | cons c cs =>
            rw [hCs] at hEq hDigits
            cases hEq
            cases hDigits '-' List.mem_cons_self
      · exact hUnsigned

/- A numeral begins with a digit or a minus sign. -/
theorem head_of_read?
    {c : Char}
    {cs rest : List Char}
    {t : Numeral}
    (hRead : read? (c :: cs) = some (t, rest)) :
    c = '-' ∨ c.isDigit = true := by
  unfold read? at hRead
  split at hRead
  · rename_i hEq
    exact .inl (List.cons.inj hEq).1
  · right
    unfold readUnsigned? readWhole? at hRead
    by_contra hOther
    have hNone : isDigit c = false := by
      rw [isDigit_eq]
      exact Bool.eq_false_iff.mpr hOther
    rw [List.takeWhile_cons, hNone] at hRead
    cases hRead

end Numeral

namespace Json

------------------------------------------------------------
-- Strings
------------------------------------------------------------

theorem hexNumber?_control :
    ∀ n < 32,
      hexNumber?
          ['0', '0', Nat.digitChar (n / 16),
            Nat.digitChar (n % 16)] =
        some n := by
  decide

theorem digitChar_plain :
    ∀ n < 16,
      Nat.digitChar n ≠ '"' ∧
        Nat.digitChar n ≠ '\\' ∧
          32 ≤ (Nat.digitChar n).toNat := by
  decide

/-
  How a character is escaped: by a letter, by its number, or
  not at all.
-/
theorem escape_cases
    (c : Char) :
    (∃ letter,
        escape c = ['\\', letter] ∧
          letter ≠ 'u' ∧
            letterEscape? letter = some c.toNat) ∨
      (c.toNat < 32 ∧
        escape c =
          ['\\', 'u', '0', '0', Nat.digitChar (c.toNat / 16),
            Nat.digitChar (c.toNat % 16)]) ∨
      (escape c = [c] ∧ c ≠ '"' ∧ c ≠ '\\' ∧ 32 ≤ c.toNat) := by
  unfold escape
  split
  case isTrue hQuote =>
    refine .inl ⟨'"', rfl, by decide, ?_⟩
    rw [hQuote]
    rfl
  split
  case isTrue hBackslash =>
    refine .inl ⟨'\\', rfl, by decide, ?_⟩
    rw [hBackslash]
    rfl
  split
  case isTrue hLine =>
    exact .inl ⟨'n', rfl, by decide, hLine ▸ rfl⟩
  split
  case isTrue hReturn =>
    exact .inl ⟨'r', rfl, by decide, hReturn ▸ rfl⟩
  split
  case isTrue hTab =>
    exact .inl ⟨'t', rfl, by decide, hTab ▸ rfl⟩
  split
  case isTrue hBell =>
    exact .inl ⟨'b', rfl, by decide, hBell ▸ rfl⟩
  split
  case isTrue hFeed =>
    exact .inl ⟨'f', rfl, by decide, hFeed ▸ rfl⟩
  split
  case isTrue hControl => exact .inr (.inl ⟨hControl, rfl⟩)
  case isFalse hQuote hBackslash _ _ _ _ _ hPrints =>
    exact
      .inr (.inr
        ⟨rfl, hQuote, hBackslash, Nat.le_of_not_lt hPrints⟩)

theorem stringBody?_cons
    {c : Char}
    (hQuote : c ≠ '"')
    (hBackslash : c ≠ '\\')
    (hPrints : 32 ≤ c.toNat)
    (cs : List Char) :
    stringBody? (c :: cs) =
      (stringBody? cs).map fun (body, after) =>
        (c :: body, after) := by
  rw [stringBody?]
  · rw [if_neg (Nat.not_lt.mpr hPrints)]
  · exact hQuote
  · exact fun _ _ hEq => absurd hEq hBackslash

/- A character is found in a string as it is escaped. -/
theorem stringBody?_escape
    (c : Char)
    (cs : List Char) :
    stringBody? (escape c ++ cs) =
      (stringBody? cs).map fun (body, after) =>
        (escape c ++ body, after) := by
  rcases escape_cases c with
    ⟨letter, hEscape, -⟩ | ⟨hControl, hEscape⟩ |
      ⟨hEscape, hQuote, hBackslash, hPrints⟩
  · rw [hEscape]
    rfl
  · have hHigh := digitChar_plain (c.toNat / 16) (by omega)
    have hLow := digitChar_plain (c.toNat % 16) (by omega)
    rw [hEscape]
    simp only [List.cons_append, List.nil_append]
    rw [stringBody?,
      stringBody?_cons (by decide) (by decide) (by decide),
      stringBody?_cons (by decide) (by decide) (by decide),
      stringBody?_cons hHigh.1 hHigh.2.1 hHigh.2.2,
      stringBody?_cons hLow.1 hLow.2.1 hLow.2.2]
    cases stringBody? cs <;> rfl
  · rw [hEscape]
    exact stringBody?_cons hQuote hBackslash hPrints cs

/- A string ends at its closing quote. -/
theorem stringBody?_flatMap_escape
    (cs rest : List Char) :
    stringBody? (cs.flatMap escape ++ '"' :: rest) =
      some (cs.flatMap escape, rest) := by
  induction cs with
  | nil => rfl
  | cons c cs ih =>
      rw [List.flatMap_cons, List.append_assoc,
        stringBody?_escape, ih]
      rfl

theorem unescape?_escape
    (c : Char)
    (cs : List Char) :
    unescape? (escape c ++ cs) =
      (unescape? cs).map (c.toNat :: ·) := by
  rcases escape_cases c with
    ⟨letter, hEscape, hLetter, hPoint⟩ | ⟨hControl, hEscape⟩ |
      ⟨hEscape, hQuote, hBackslash, hPrints⟩
  · rw [hEscape]
    simp only [List.cons_append, List.nil_append]
    rw [unescape?]
    · rw [hPoint]
      rfl
    · intro _ _ _ _ _ hEq
      exact absurd hEq hLetter
  · rw [hEscape]
    simp only [List.cons_append, List.nil_append]
    rw [unescape?, hexNumber?_control _ hControl]
    rfl
  · rw [hEscape]
    simp only [List.cons_append, List.nil_append]
    rw [unescape?]
    · intro _ _ _ _ _ hEq
      exact absurd hEq hBackslash
    · intro _ _ hEq
      exact absurd hEq hBackslash
    · intro hEq
      exact absurd hEq hBackslash

theorem unescape?_flatMap_escape
    (cs : List Char) :
    unescape? (cs.flatMap escape) = some (cs.map Char.toNat) := by
  induction cs with
  | nil => rfl
  | cons c cs ih =>
      rw [List.flatMap_cons, unescape?_escape, ih]
      rfl

/- Characters are not halves of surrogate pairs. -/
theorem joinHalves?_map_toNat
    (cs : List Char) :
    joinHalves? (cs.map Char.toNat) = some cs := by
  induction cs with
  | nil => rfl
  | cons c cs ih =>
      have hValid : c.toNat < 0xD800 ∨ 0xDFFF < c.toNat := by
        rcases c.valid with hLow | ⟨hHigh, -⟩
        · exact .inl hLow
        · exact .inr hHigh
      have hHigh : isHighHalf c.toNat = false := by
        unfold isHighHalf
        simp only [Bool.and_eq_false_iff, decide_eq_false_iff_not]
        omega
      have hLow : isLowHalf c.toNat = false := by
        unfold isLowHalf
        simp only [Bool.and_eq_false_iff, decide_eq_false_iff_not]
        omega
      rw [List.map_cons, joinHalves?.eq_def]
      simp [hHigh, hLow, ih]

namespace Token

/- A string is read back behind its opening quote. -/
theorem readString?_quote
    (s : String)
    (rest : List Char) :
    readString? (s.toList.flatMap escape ++ '"' :: rest) =
      some (string (some s), rest) := by
  unfold readString?
  rw [stringBody?_flatMap_escape, Option.bind_some]
  dsimp only
  rw [unescape?_flatMap_escape, Option.map_some,
    joinHalves?_map_toNat, Option.map_some, String.ofList_toList]

------------------------------------------------------------
-- Scanning
------------------------------------------------------------

theorem read?_of_numeral
    {t : Numeral}
    {cs rest : List Char}
    (hRead : Numeral.read? cs = some (t, rest)) :
    NotBefore isBlank cs ∧ read? cs = some (number t, rest) := by
  cases cs with
  | nil => cases hRead
  | cons c cs =>
      have hHead := Numeral.head_of_read? hRead
      constructor
      · intro d hMem
        cases hMem
        rcases hHead with rfl | hDigit
        · rfl
        · refine Bool.eq_false_iff.mpr fun hBlank => ?_
          unfold isBlank at hBlank
          simp only [Bool.or_eq_true, beq_iff_eq] at hBlank
          rcases hBlank with ((rfl | rfl) | rfl) | rfl <;>
            cases hDigit
      · unfold read?
        split
        case h_11 =>
          rw [hRead]
          rfl
        all_goals
          rename_i hEq
          cases hEq
          rcases hHead with hMinus | hDigit
          · cases hMinus
          · cases hDigit

/- A text that begins with a token is cut behind the token. -/
theorem scan_of_read?
    {t : Token}
    {cs rest : List Char}
    (hBlank : NotBefore isBlank cs)
    (hRead : read? cs = some (t, rest)) :
    scan cs = (t :: (scan rest).1, (scan rest).2) := by
  have hNone : ∀ c ∈ ([] : List Char), isBlank c = true := nofun
  have hDrop : cs.dropWhile isBlank = cs :=
    (takeWhile_append_of_notBefore hNone hBlank).2
  cases cs with
  | nil => cases hRead
  | cons c cs =>
      rw [scan]
      split
      · rename_i hEmpty
        rw [hDrop] at hEmpty
        cases hEmpty
      · rename_i hCons
        rw [hDrop] at hCons
        cases hCons
        split
        · rename_i hNone
          rw [hRead] at hNone
          cases hNone
        · rename_i hSome
          rw [hRead] at hSome
          cases hSome
          rfl

end Token

end Json

end OrderDesk
