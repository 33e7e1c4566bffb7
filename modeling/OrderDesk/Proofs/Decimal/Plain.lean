import OrderDesk.Proofs.Decimal.Value
import OrderDesk.Proofs.Text.Digits

/-
  This file proves that plain notation is read exactly as
  long as a decimal has room for all its digits.

  Key theorems include:
    * `Decimal.ofPlainChars?_eq`
    * `Decimal.exists_ofParts?`
-/

namespace OrderDesk

namespace Decimal

------------------------------------------------------------
-- Reading Digits
------------------------------------------------------------

theorem readDigits?_whole
    {cs : List Char}
    (hDigits : IsDigits cs)
    {n : Nat}
    (hFits : Nat.ofDigitChars 10 cs n < twoTo 96)
    (any : Bool)
    (rest : List Char) :
    readDigits? ⟨n, 0⟩ false any (cs ++ rest) =
      readDigits? ⟨Nat.ofDigitChars 10 cs n, 0⟩ false
        (any || !cs.isEmpty) rest := by
  induction cs generalizing n any with
  | nil => simp [Nat.ofDigitChars_nil]
  | cons c cs ih =>
      have hHead := hDigits c List.mem_cons_self
      rw [Nat.ofDigitChars_cons] at hFits ⊢
      have hNext := le_ofDigitChars (10 * n + (c.toNat - '0'.toNat)) cs
      rw [List.cons_append, readDigits?, digitValue?_eq,
        if_pos hHead]
      dsimp only
      rw [if_neg (by simp), if_neg (by omega),
        if_neg Bool.false_ne_true, ih hDigits.tail hFits]
      simp

theorem readDigits?_fraction
    {cs : List Char}
    (hDigits : IsDigits cs)
    {n s : Nat}
    (hFits : Nat.ofDigitChars 10 cs n < twoTo 96)
    (hPlaces : s + cs.length ≤ 28) :
    readDigits? ⟨n, s⟩ true true cs =
      some ⟨Nat.ofDigitChars 10 cs n, s + cs.length⟩ := by
  induction cs generalizing n s with
  | nil => rfl
  | cons c cs ih =>
      have hHead := hDigits c List.mem_cons_self
      rw [Nat.ofDigitChars_cons] at hFits ⊢
      rw [List.length_cons] at hPlaces ⊢
      have hNext := le_ofDigitChars (10 * n + (c.toNat - '0'.toNat)) cs
      rw [readDigits?, digitValue?_eq, if_pos hHead]
      dsimp only
      rw [if_neg (by omega), if_neg (by omega), if_pos rfl,
        ih hDigits.tail hFits (by omega), Nat.add_assoc,
        Nat.add_comm 1]

/- Digits with a point among them are read exactly. -/
theorem readDigits?_eq
    {whole fraction : List Char}
    (hWhole : IsDigits whole)
    (hSome : whole ≠ [])
    (hFraction : IsDigits fraction)
    (hFits :
      Nat.ofDigitChars 10 (whole ++ fraction) 0 < twoTo 96)
    (hPlaces : fraction.length ≤ 28) :
    readDigits? ⟨0, 0⟩ false false
        (whole ++
          if fraction.isEmpty then [] else '.' :: fraction) =
      some
        ⟨Nat.ofDigitChars 10 (whole ++ fraction) 0,
          fraction.length⟩ := by
  rw [Nat.ofDigitChars_append] at hFits ⊢
  have hBefore :=
    lt_of_le_of_lt (le_ofDigitChars _ fraction) hFits
  rw [readDigits?_whole hWhole hBefore]
  have hAny : (false || !whole.isEmpty) = true := by
    simpa using hSome
  rw [hAny]
  cases fraction with
  | nil => rfl
  | cons d ds =>
      have hBehind :=
        readDigits?_fraction hFraction hFits (s := 0) (by omega)
      rw [Nat.zero_add] at hBehind
      exact hBehind

theorem ne_sign_of_isDigit
    {c : Char}
    (hDigit : c.isDigit = true) :
    c ≠ '-' ∧ c ≠ '+' := by
  constructor
  all_goals
    rintro rfl
    cases hDigit

/-
  Plain notation with a minus sign or none is read as the
  digits it shows, with as many places as stand behind the
  point.
-/
theorem ofPlainChars?_eq
    (negative : Bool)
    {whole fraction : List Char}
    (hWhole : IsDigits whole)
    (hSome : whole ≠ [])
    (hFraction : IsDigits fraction)
    {n : Nat}
    (hNumber : Nat.ofDigitChars 10 (whole ++ fraction) 0 = n)
    (hFits : n < twoTo 96)
    (hPlaces : fraction.length ≤ 28) :
    ofPlainChars?
        ((if negative then ['-'] else []) ++ whole ++
          if fraction.isEmpty then [] else '.' :: fraction) =
      ofParts? (if negative then -(n : ℤ) else n)
        fraction.length := by
  subst hNumber
  have hRead :=
    readDigits?_eq hWhole hSome hFraction hFits hPlaces
  rw [List.append_assoc]
  unfold ofPlainChars?
  cases negative with
  | true =>
      rw [if_pos rfl]
      change (readDigits? _ false false (whole ++ _)).bind _ = _
      rw [hRead]
      rfl
  | false =>
      rw [if_neg Bool.false_ne_true, List.nil_append]
      cases whole with
      | nil => contradiction
      | cons d ds =>
          rcases ne_sign_of_isDigit (hWhole d List.mem_cons_self)
            with ⟨hMinus, hPlus⟩
          rw [List.cons_append] at hRead ⊢
          dsimp only
          split
          · rename_i hEq
            exact absurd (List.cons.inj hEq).1 hMinus
          · rename_i hEq
            exact absurd (List.cons.inj hEq).1 hPlus
          · rw [hRead]
            rfl

------------------------------------------------------------
-- The Value That Is Read
------------------------------------------------------------

/- Parts that are in range make a decimal of their value. -/
theorem exists_ofParts?
    {c : ℤ}
    (hFits : c.natAbs < twoTo 96)
    {s : Nat}
    (hScale : s ≤ 28) :
    ∃ a, ofParts? c s = some a ∧ a.value = c / 10 ^ s := by
  unfold ofParts?
  rw [dif_pos ⟨hFits, by omega, by omega⟩]
  exact ⟨_, rfl, rfl⟩

end Decimal

end OrderDesk
