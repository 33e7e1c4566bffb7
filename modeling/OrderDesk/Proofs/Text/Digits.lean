import Mathlib.Data.List.TakeWhile
import Mathlib.Data.Nat.Digits.Defs
import Mathlib.Tactic.Positivity
import Mathlib.Tactic.Ring
import OrderDesk.Decimal.Text

/-
  This file proves that the digits of a number are read back
  as the number, and how a row of digits is told from what
  follows it.

  Key definitions include:
    * `IsDigits`
    * `NotBefore`

  Key theorems include:
    * `natOfDigits?_of_isDigits`
    * `natOfDigits?_digitChars`
    * `between_length_digitChars`
    * `digitChars_mul_pow`
    * `takeWhile_append_of_notBefore`
-/

namespace OrderDesk

------------------------------------------------------------
-- Rows Of Digits
------------------------------------------------------------

/- A row of ASCII digits. -/
def IsDigits
    (cs : List Char) : Prop :=
  ∀ c ∈ cs, c.isDigit = true

/- Digits are told by their code points. -/
theorem digitValue?_eq
    (c : Char) :
    digitValue? c =
      if c.isDigit then some (c.toNat - '0'.toNat) else none := by
  unfold digitValue? Char.isDigit
  simp only [Bool.and_eq_true, decide_eq_true_eq]
  rfl

theorem isSome_digitValue?
    (c : Char) :
    (digitValue? c).isSome = c.isDigit := by
  rw [digitValue?_eq]
  cases c.isDigit <;> rfl

theorem foldlM_digits
    {cs : List Char}
    (hDigits : IsDigits cs)
    (n : Nat) :
    cs.foldlM
        (fun n c => (digitValue? c).map (10 * n + ·)) n =
      some (Nat.ofDigitChars 10 cs n) := by
  induction cs generalizing n with
  | nil => rfl
  | cons c cs ih =>
      have hHead := hDigits c List.mem_cons_self
      have hTail : IsDigits cs :=
        fun d hMem => hDigits d (List.mem_cons_of_mem c hMem)
      rw [List.foldlM_cons, digitValue?_eq, if_pos hHead]
      exact ih hTail _

/- A row of digits that is not empty denotes a number. -/
theorem natOfDigits?_of_isDigits
    {cs : List Char}
    (hDigits : IsDigits cs)
    (hCs : cs ≠ []) :
    natOfDigits? cs = some (Nat.ofDigitChars 10 cs 0) := by
  unfold natOfDigits?
  rw [if_neg (by simpa using hCs)]
  exact foldlM_digits hDigits 0

theorem isDigits_digitChars
    (n : Nat) :
    IsDigits (digitChars n) :=
  fun _ hMem =>
    Nat.isDigit_of_mem_toDigits (by decide) (by decide) hMem

theorem digitChars_ne_nil
    (n : Nat) :
    digitChars n ≠ [] :=
  Nat.toDigits_ne_nil

/- The digits of a number denote the number. -/
theorem natOfDigits?_digitChars
    (n : Nat) :
    natOfDigits? (digitChars n) = some n := by
  rw [natOfDigits?_of_isDigits (isDigits_digitChars n)
    (digitChars_ne_nil n)]
  exact
    congrArg some
      (Nat.ofDigitChars_toDigits (by decide) (by decide))

/- Zeros are digits. -/
theorem isDigits_zeros
    (k : Nat) :
    IsDigits (List.replicate k '0') := by
  intro c hMem
  rw [List.eq_of_mem_replicate hMem]
  rfl

theorem IsDigits.append
    {cs ds : List Char}
    (hFirst : IsDigits cs)
    (hSecond : IsDigits ds) :
    IsDigits (cs ++ ds) := by
  intro c hMem
  rcases List.mem_append.mp hMem with hLeft | hRight
  · exact hFirst c hLeft
  · exact hSecond c hRight

theorem IsDigits.tail
    {c : Char}
    {cs : List Char}
    (hDigits : IsDigits (c :: cs)) :
    IsDigits cs :=
  fun d hMem => hDigits d (List.mem_cons_of_mem c hMem)

/- Further digits make a number larger. -/
theorem le_ofDigitChars
    (n : Nat)
    (cs : List Char) :
    n ≤ Nat.ofDigitChars 10 cs n := by
  rw [Nat.ofDigitChars_eq_ofDigitChars_zero]
  have hPower : 0 < 10 ^ cs.length := by positivity
  have hScaled := Nat.le_mul_of_pos_left n hPower
  omega

------------------------------------------------------------
-- The Digits Of A Number
------------------------------------------------------------

/- A number has as many digits as the powers it is between say. -/
theorem between_length_digitChars
    {n : Nat}
    (hN : 0 < n) :
    10 ^ ((digitChars n).length - 1) ≤ n ∧
      n < 10 ^ (digitChars n).length := by
  have hLe :
      ∀ k, 0 < k → ((digitChars n).length ≤ k ↔ n < 10 ^ k) :=
    fun k hK => Nat.length_toDigits_le_iff (by decide) hK
  have hPos : 0 < (digitChars n).length := Nat.length_toDigits_pos
  constructor
  · by_contra hNot
    rcases Nat.eq_zero_or_pos ((digitChars n).length - 1) with
      hOne | hMore
    · rw [hOne, pow_zero] at hNot
      omega
    · have hShort := (hLe _ hMore).mpr (Nat.lt_of_not_le hNot)
      omega
  · exact (hLe _ hPos).mp (Nat.le_refl _)

theorem digitChars_of_lt
    {n : Nat}
    (hN : n < 10) :
    digitChars n = [Nat.digitChar n] :=
  Nat.toDigits_of_lt_base hN

theorem digitChars_of_le
    {n : Nat}
    (hN : 10 ≤ n) :
    digitChars n = digitChars (n / 10) ++ [Nat.digitChar (n % 10)] :=
  Nat.toDigits_of_base_le (by decide) hN

/- Only the digit of zero is a zero. -/
theorem digitChar_ne_zero :
    ∀ d < 10, d ≠ 0 → Nat.digitChar d ≠ '0' := by
  decide

/- Positive numbers do not begin with a zero. -/
theorem head?_digitChars_ne
    {n : Nat}
    (hN : 0 < n) :
    (digitChars n).head? ≠ some '0' := by
  induction n using Nat.strongRecOn with
  | ind n ih =>
      rcases Nat.lt_or_ge n 10 with hSmall | hLarge
      · rw [digitChars_of_lt hSmall]
        intro hZero
        exact
          digitChar_ne_zero n hSmall hN.ne' (Option.some.inj hZero)
      · rw [digitChars_of_le hLarge,
          List.head?_append_of_ne_nil _ (digitChars_ne_nil _)]
        exact ih (n / 10) (by omega) (by omega)

/- Numbers that ten does not divide do not end with a zero. -/
theorem getLast?_digitChars_ne
    {n : Nat}
    (hN : ¬ 10 ∣ n) :
    (digitChars n).getLast? ≠ some '0' := by
  intro hZero
  rcases Nat.lt_or_ge n 10 with hSmall | hLarge
  · rw [digitChars_of_lt hSmall] at hZero
    exact
      digitChar_ne_zero n hSmall (by omega) (Option.some.inj hZero)
  · rw [digitChars_of_le hLarge, List.getLast?_concat] at hZero
    exact
      digitChar_ne_zero (n % 10) (by omega) (by omega)
        (Option.some.inj hZero)

/- Factors of ten are zeros at the end. -/
theorem digitChars_mul_pow
    {n : Nat}
    (hN : 0 < n)
    (k : Nat) :
    digitChars (n * 10 ^ k) =
      digitChars n ++ List.replicate k '0' := by
  induction k with
  | zero => simp
  | succ k ih =>
      have hPos : 0 < n * 10 ^ k := by positivity
      have hAppend :=
        Nat.toDigits_append_toDigits (b := 10) (by decide) hPos
          (by decide : 0 < 10)
      rw [Nat.toDigits_zero, Nat.add_zero] at hAppend
      change digitChars _ ++ ['0'] = digitChars _ at hAppend
      rw [ih, List.append_assoc, ← List.replicate_succ'] at hAppend
      rw [hAppend, pow_succ]
      congr 1
      ring

------------------------------------------------------------
-- The End Of A Row
------------------------------------------------------------

/- What follows does not begin with a character of the kind. -/
def NotBefore
    (p : Char → Bool)
    (rest : List Char) : Prop :=
  ∀ c ∈ rest.head?, p c = false

/- A row ends where something of another kind begins. -/
theorem takeWhile_append_of_notBefore
    {p : Char → Bool}
    {cs rest : List Char}
    (hAll : ∀ c ∈ cs, p c = true)
    (hRest : NotBefore p rest) :
    (cs ++ rest).takeWhile p = cs ∧
      (cs ++ rest).dropWhile p = rest := by
  rw [List.takeWhile_append_of_pos hAll,
    List.dropWhile_append_of_pos hAll]
  cases rest with
  | nil => simp
  | cons c rest =>
      have hHead : ¬ p c = true := by
        rw [hRest c rfl]
        exact Bool.false_ne_true
      rw [List.takeWhile_cons_of_neg hHead,
        List.dropWhile_cons_of_neg hHead, List.append_nil]
      exact ⟨rfl, rfl⟩

end OrderDesk
