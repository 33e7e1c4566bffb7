import Mathlib.Data.List.Basic
import Mathlib.Tactic.Ring
import OrderDesk.Uuid

/-
  This file proves that identifiers are read back from their
  written form, and that random ones are not nil.

  Key definitions include:
    * `Uuid.hexRow`

  Key theorems include:
    * `Uuid.ofHexDigits?_hexDigits`
    * `Uuid.ofText?_toText`
    * `Uuid.ofRandom_ne_nil`
-/

namespace OrderDesk

namespace Uuid

------------------------------------------------------------
-- Hexadecimal Digits
------------------------------------------------------------

theorem hexValue?_digitChar :
    ∀ d < 16, hexValue? (Nat.digitChar d) = some d := by
  decide

/- The last digits of a number, most significant first. -/
def hexRow
    (n : Nat) :
    Nat → List Char
| 0 => []
| count + 1 =>
    Nat.digitChar (n / twoTo (4 * count) % 16) :: hexRow n count

/- The row has as many digits as are asked for. -/
theorem length_hexRow
    (n count : Nat) :
    (hexRow n count).length = count := by
  induction count with
  | zero => rfl
  | succ count ih => rw [hexRow, List.length_cons, ih]

theorem hexDigits_eq_hexRow
    (u : Uuid) :
    u.hexDigits = hexRow u.value 32 :=
  rfl

theorem foldlM_hexRow
    (n count start : Nat) :
    (hexRow n count).foldlM
        (fun n c => (hexValue? c).map (16 * n + ·)) start =
      some (start * twoTo (4 * count) + n % twoTo (4 * count)) := by
  induction count generalizing start with
  | zero => simp [hexRow, twoTo, Nat.mod_one]
  | succ count ih =>
      have hDigit :
          hexValue? (Nat.digitChar (n / twoTo (4 * count) % 16)) =
            some (n / twoTo (4 * count) % 16) :=
        hexValue?_digitChar _ (Nat.mod_lt _ (by decide))
      have hPower :
          twoTo (4 * (count + 1)) = twoTo (4 * count) * 16 := by
        change 2 ^ (4 * (count + 1)) = 2 ^ (4 * count) * 16
        rw [Nat.mul_add, Nat.pow_add]
      rw [hexRow, List.foldlM_cons, hDigit]
      change
        (hexRow n count).foldlM _
            (16 * start + n / twoTo (4 * count) % 16) = _
      rw [ih, hPower, Nat.mod_mul]
      congr 1
      ring

/- The digits of an identifier denote it. -/
theorem ofHexDigits?_hexDigits
    (u : Uuid) :
    ofHexDigits? u.hexDigits = some u := by
  have hFold := foldlM_hexRow u.value 32 0
  rw [Nat.zero_mul, Nat.zero_add, Nat.mod_eq_of_lt u.value_lt]
    at hFold
  unfold ofHexDigits?
  rw [hexDigits_eq_hexRow, if_pos (length_hexRow _ 32), hFold]
  unfold ofNat
  simp only [Option.map_some, Nat.mod_eq_of_lt u.value_lt]

------------------------------------------------------------
-- Hyphens
------------------------------------------------------------

theorem unhyphenate?_hyphenate
    {lengths : List Nat}
    {cs : List Char}
    (hLengths : lengths ≠ [])
    (hSum : cs.length = lengths.sum) :
    unhyphenate? lengths (hyphenate lengths cs) = some cs := by
  induction lengths generalizing cs with
  | nil => contradiction
  | cons n ns ih =>
      cases ns with
      | nil =>
          rw [hyphenate, unhyphenate?, if_pos]
          rw [hSum, List.sum_cons, List.sum_nil, Nat.add_zero]
      | cons next rest =>
          rw [List.sum_cons] at hSum
          have hTake : (cs.take n).length = n := by
            rw [List.length_take]
            omega
          have hDrop :
              (cs.drop n).length = (next :: rest).sum := by
            rw [List.length_drop]
            omega
          rw [hyphenate, unhyphenate?]
          · rw [List.drop_left' hTake, List.take_left' hTake]
            change
              (unhyphenate? (next :: rest)
                  (hyphenate (next :: rest) (cs.drop n))).map
                    (cs.take n ++ ·) = some cs
            rw [ih nofun hDrop, Option.map_some,
              List.take_append_drop]
          · exact nofun
          · exact nofun

theorem length_hyphenate
    {lengths : List Nat}
    {cs : List Char}
    (hSum : cs.length = lengths.sum) :
    (hyphenate lengths cs).length =
      cs.length + (lengths.length - 1) := by
  induction lengths generalizing cs with
  | nil => rfl
  | cons n ns ih =>
      cases ns with
      | nil => rfl
      | cons next rest =>
          rw [List.sum_cons] at hSum
          have hDrop :
              (cs.drop n).length = (next :: rest).sum := by
            rw [List.length_drop]
            omega
          rw [hyphenate]
          · rw [List.length_append, List.length_cons, ih hDrop,
              List.length_take, List.length_drop]
            simp only [List.length_cons]
            omega
          · exact nofun

/- An identifier is read back from its written form. -/
theorem ofText?_toText
    (u : Uuid) :
    ofText? u.toText = some u := by
  have hSum : u.hexDigits.length = groupLengths.sum :=
    length_hexRow u.value 32
  have hLength : u.toChars.length = 36 := by
    unfold toChars
    rw [length_hyphenate hSum, hSum]
    rfl
  have hHyphenated : ofHyphenated? u.toChars = some u := by
    have hLengths : groupLengths ≠ [] := by decide
    unfold ofHyphenated? toChars
    rw [unhyphenate?_hyphenate hLengths hSum, Option.bind_some]
    exact ofHexDigits?_hexDigits u
  unfold ofText? toText ofChars?
  rw [String.toList_ofList, hLength]
  exact hHyphenated

------------------------------------------------------------
-- Random Identifiers
------------------------------------------------------------

/- The version number is not zero, and so a random one is not nil. -/
theorem ofRandom_ne_nil
    (bits : Nat) :
    ofRandom bits ≠ nil := by
  intro hNil
  have hValue := congrArg value hNil
  unfold ofRandom ofNat nil ofNat at hValue
  simp only [twoTo, Nat.pow_eq, Nat.reducePow] at hValue
  omega

end Uuid

end OrderDesk
