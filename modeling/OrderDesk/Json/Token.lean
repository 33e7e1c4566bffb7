import OrderDesk.Json.Basic

/-
  This file defines the tokens of JSON text and how a text
  is cut into them, up to the first place where it is not
  JSON any more.

  Key definitions include:
    * `Json.Token`
    * `Json.unescape?`
    * `Json.Token.read?`
    * `Json.Token.scan`

  Key theorems include:
    * `Json.Token.read?_length`
-/

namespace OrderDesk

namespace Json

------------------------------------------------------------
-- Strings
------------------------------------------------------------

/-
  The characters up to the closing quote, escapes not yet
  resolved, and what follows the quote. Control characters
  do not stand in strings.
-/
def stringBody? :
    List Char → Option (List Char × List Char)
| [] => none
| '"' :: rest => some ([], rest)
| '\\' :: c :: rest =>
    (stringBody? rest).map fun (body, after) =>
      ('\\' :: c :: body, after)
| c :: rest =>
    if c.toNat < 32 then
      none
    else
      (stringBody? rest).map fun (body, after) => (c :: body, after)

/- The number that four hexadecimal digits denote. -/
def hexNumber?
    (ds : List Char) : Option Nat :=
  ds.foldlM (fun n c => (Uuid.hexValue? c).map (16 * n + ·)) 0

/- The code point that a one-letter escape stands for. -/
def letterEscape?
    (c : Char) : Option Nat :=
  if c = '"' ∨ c = '\\' ∨ c = '/' then some c.toNat
  else if c = 'b' then some 8
  else if c = 'f' then some 12
  else if c = 'n' then some 10
  else if c = 'r' then some 13
  else if c = 't' then some 9
  else none

/-
  Resolve escapes. The result holds code points, and halves
  of surrogate pairs where escapes denote them; nothing for
  an escape that does not exist.
-/
def unescape? :
    List Char → Option (List Nat)
| [] => some []
| '\\' :: 'u' :: a :: b :: c :: d :: rest =>
    (hexNumber? [a, b, c, d]).bind fun n =>
      (unescape? rest).map (n :: ·)
| '\\' :: c :: rest =>
    (letterEscape? c).bind fun n => (unescape? rest).map (n :: ·)
| ['\\'] => none
| c :: rest => (unescape? rest).map (c.toNat :: ·)

/- The number is the first half of a surrogate pair. -/
def isHighHalf
    (n : Nat) : Bool :=
  decide (0xD800 ≤ n) && decide (n < 0xDC00)

/- The number is the second half of a surrogate pair. -/
def isLowHalf
    (n : Nat) : Bool :=
  decide (0xDC00 ≤ n) && decide (n < 0xE000)

/- The code point that a surrogate pair stands for. -/
def pairedPoint
    (high low : Nat) : Nat :=
  0x10000 + (high - 0xD800) * 0x400 + (low - 0xDC00)

/-
  Join surrogate pairs; nothing when a half stands alone.
-/
def joinHalves? :
    List Nat → Option (List Char)
| [] => some []
| n :: rest =>
    if isHighHalf n then
      match rest with
      | low :: rest' =>
          if isLowHalf low then
            (joinHalves? rest').map (Char.ofNat (pairedPoint n low) :: ·)
          else
            none
      | [] => none
    else if isLowHalf n then
      none
    else
      (joinHalves? rest).map (Char.ofNat n :: ·)

------------------------------------------------------------
-- Tokens
------------------------------------------------------------

/- The smallest parts of JSON text. -/
inductive Token where
  | openArray
  | closeArray
  | openObject
  | closeObject
  | comma
  | colon
  | null
  | bool (value : Bool)
  | number (numeral : Numeral)
  | string (text : Option String)
deriving DecidableEq

namespace Token

/- The character is blank. -/
def isBlank
    (c : Char) : Bool :=
  c == ' ' || c == '\n' || c == '\t' || c == '\r'

/- Read a string whose opening quote is gone. -/
def readString?
    (cs : List Char) : Option (Token × List Char) :=
  (stringBody? cs).bind fun (body, after) =>
    (unescape? body).map fun units =>
      (string ((joinHalves? units).map String.ofList), after)

/- Read a token from the front of a text that does not begin with a blank. -/
def read?
    (cs : List Char) : Option (Token × List Char) :=
  match cs with
  | '[' :: rest => some (openArray, rest)
  | ']' :: rest => some (closeArray, rest)
  | '{' :: rest => some (openObject, rest)
  | '}' :: rest => some (closeObject, rest)
  | ',' :: rest => some (comma, rest)
  | ':' :: rest => some (colon, rest)
  | '"' :: rest => readString? rest
  | 'n' :: 'u' :: 'l' :: 'l' :: rest => some (null, rest)
  | 't' :: 'r' :: 'u' :: 'e' :: rest => some (bool true, rest)
  | 'f' :: 'a' :: 'l' :: 's' :: 'e' :: rest => some (bool false, rest)
  | _ => (Numeral.read? cs).map fun (t, rest) => (number t, rest)

end Token

end Json

------------------------------------------------------------
-- Tokens Use Up Text
------------------------------------------------------------

namespace Numeral

/- What is left behind a row of characters is no longer than the text. -/
theorem length_dropWhile_le
    (p : Char → Bool)
    (cs : List Char) :
    (cs.dropWhile p).length ≤ cs.length := by
  induction cs with
  | nil => simp
  | cons c cs ih =>
      simp only [List.dropWhile_cons]
      split
      · simp only [List.length_cons]
        omega
      · exact Nat.le_refl _

theorem readWhole?_length
    {cs ds rest : List Char}
    (h : readWhole? cs = some (ds, rest)) :
    rest.length < cs.length := by
  have hSplit := List.takeWhile_append_dropWhile
    (p := isDigit) (l := cs)
  have hSum : (cs.takeWhile isDigit).length +
      (cs.dropWhile isDigit).length = cs.length := by
    rw [← List.length_append, hSplit]
  unfold readWhole? at h
  split at h
  · simp at h
  · rename_i hEq
    simp only [Option.some.injEq, Prod.mk.injEq] at h
    rw [hEq] at hSum
    simp only [List.length_cons, List.length_nil] at hSum
    rw [← h.2]
    omega
  · simp at h
  · rename_i hNil _ _
    simp only [Option.some.injEq, Prod.mk.injEq] at h
    have hPos : 0 < (cs.takeWhile isDigit).length :=
      List.length_pos_iff.mpr hNil
    rw [← h.2]
    omega

theorem readFraction?_length
    {cs ds rest : List Char}
    (h : readFraction? cs = some (ds, rest)) :
    rest.length ≤ cs.length := by
  unfold readFraction? at h
  split at h
  · rename_i tail
    split at h
    · simp at h
    · simp only [Option.some.injEq, Prod.mk.injEq] at h
      have := length_dropWhile_le isDigit tail
      rw [← h.2]
      simp only [List.length_cons]
      omega
  · simp only [Option.some.injEq, Prod.mk.injEq] at h
    exact Nat.le_of_eq (congrArg List.length h.2.symm)

theorem readExponentDigits?_length
    {sign : ExponentSign}
    {cs rest : List Char}
    {e : Option (ExponentSign × List Char)}
    (h : readExponentDigits? sign cs = some (e, rest)) :
    rest.length ≤ cs.length := by
  unfold readExponentDigits? at h
  split at h
  · simp at h
  · simp only [Option.some.injEq, Prod.mk.injEq] at h
    rw [← h.2]
    exact length_dropWhile_le isDigit cs

theorem readExponent?_length
    {cs rest : List Char}
    {e : Option (ExponentSign × List Char)}
    (h : readExponent? cs = some (e, rest)) :
    rest.length ≤ cs.length := by
  unfold readExponent? at h
  split at h
  · split at h
    · split at h
      · have := readExponentDigits?_length h
        simp only [List.length_cons]
        omega
      · have := readExponentDigits?_length h
        simp only [List.length_cons]
        omega
      · have := readExponentDigits?_length h
        simp only [List.length_cons]
        omega
    · simp only [Option.some.injEq, Prod.mk.injEq] at h
      exact Nat.le_of_eq (congrArg List.length h.2.symm)
  · simp only [Option.some.injEq, Prod.mk.injEq] at h
    exact Nat.le_of_eq (congrArg List.length h.2.symm)

theorem readUnsigned?_length
    {negative : Bool}
    {cs rest : List Char}
    {t : Numeral}
    (h : readUnsigned? negative cs = some (t, rest)) :
    rest.length < cs.length := by
  unfold readUnsigned? at h
  simp only [Option.bind_eq_some_iff, Option.map_eq_some_iff,
    Prod.exists] at h
  obtain ⟨w, afterWhole, hWhole, f, afterFraction, hFraction,
    e, after, hExponent, hEq⟩ := h
  simp only [Prod.mk.injEq] at hEq
  have h₁ := readWhole?_length hWhole
  have h₂ := readFraction?_length hFraction
  have h₃ := readExponent?_length hExponent
  rw [← hEq.2]
  omega

/- A numeral uses up text. -/
theorem read?_length
    {cs rest : List Char}
    {t : Numeral}
    (h : read? cs = some (t, rest)) :
    rest.length < cs.length := by
  unfold read? at h
  split at h
  · have := readUnsigned?_length h
    simp only [List.length_cons]
    omega
  · exact readUnsigned?_length h

end Numeral

namespace Json

theorem stringBody?_length
    {cs body after : List Char}
    (h : stringBody? cs = some (body, after)) :
    after.length < cs.length := by
  fun_induction stringBody? cs generalizing body after with
  | case1 => simp at h
  | case2 rest =>
      simp only [Option.some.injEq, Prod.mk.injEq] at h
      rw [h.2]
      simp
  | case3 c rest ih =>
      simp only [Option.map_eq_some_iff, Prod.exists,
        Prod.mk.injEq] at h
      obtain ⟨_, _, hRest, _, hAfter⟩ := h
      have := ih hRest
      rw [← hAfter]
      simp only [List.length_cons]
      omega
  | case4 => simp at h
  | case5 c rest _ _ _ ih =>
      simp only [Option.map_eq_some_iff, Prod.exists,
        Prod.mk.injEq] at h
      obtain ⟨_, _, hRest, _, hAfter⟩ := h
      have := ih hRest
      rw [← hAfter]
      simp only [List.length_cons]
      omega

namespace Token

/- Every token uses up text. -/
theorem read?_length
    {cs rest : List Char}
    {t : Token}
    (h : read? cs = some (t, rest)) :
    rest.length < cs.length := by
  unfold read? at h
  split at h
  case h_7 =>
    unfold readString? at h
    simp only [Option.bind_eq_some_iff, Option.map_eq_some_iff,
      Prod.exists, Prod.mk.injEq] at h
    obtain ⟨_, _, hBody, _, _, _, hAfter⟩ := h
    have := stringBody?_length hBody
    rw [← hAfter]
    simp only [List.length_cons]
    omega
  case h_11 =>
    simp only [Option.map_eq_some_iff, Prod.exists,
      Prod.mk.injEq] at h
    obtain ⟨_, _, hRead, _, hAfter⟩ := h
    have := Numeral.read?_length hRead
    rw [← hAfter]
    omega
  all_goals
    simp only [Option.some.injEq, Prod.mk.injEq] at h
    rw [← h.2]
    simp only [List.length_cons]
    omega

------------------------------------------------------------
-- Scanning
------------------------------------------------------------

/-
  Cut a text into tokens. The flag says that the whole text
  was cut; otherwise it stops being JSON behind the last
  token.
-/
def scan
    (cs : List Char) : List Token × Bool :=
  match _hBlank : cs.dropWhile isBlank with
  | [] => ([], true)
  | c :: more =>
      match _hRead : read? (c :: more) with
      | none => ([], false)
      | some (t, rest) =>
          let (ts, whole) := scan rest
          (t :: ts, whole)
termination_by cs.length
decreasing_by
  have hLess := read?_length _hRead
  have hDrop := Numeral.length_dropWhile_le isBlank cs
  rw [_hBlank] at hDrop
  omega

end Token

end Json

end OrderDesk
