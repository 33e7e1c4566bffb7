import OrderDesk.Power

/-
  This file defines universally unique identifiers, their
  written forms, and the layout of random ones.

  An identifier is written as 32 hexadecimal digits in five
  groups. It is read in that form, without hyphens, in
  braces or as a URN, in either letter case.

  Key definitions include:
    * `Uuid`
    * `Uuid.toText`
    * `Uuid.ofText?`
    * `Uuid.ofRandom`
-/

namespace OrderDesk

/- A 128-bit identifier. -/
structure Uuid where
  value : Nat
  value_lt : value < twoTo 128
deriving DecidableEq

namespace Uuid

------------------------------------------------------------
-- Construction
------------------------------------------------------------

/- The identifier whose value is `n` modulo `2 ^ 128`. -/
def ofNat
    (n : Nat) : Uuid :=
  ⟨n % twoTo 128, Nat.mod_lt _ (by decide)⟩

/- The identifier that stands for no identifier. -/
def nil : Uuid :=
  ofNat 0

instance : Inhabited Uuid :=
  ⟨nil⟩

/- The version number of the layout. -/
def version
    (u : Uuid) : Nat :=
  u.value / twoTo 76 % 16

/-
  Lay out 122 random bits: 48 bits, the version number 4,
  12 bits, the variant `10` and the remaining 62 bits.
-/
def ofRandom
    (bits : Nat) : Uuid :=
  let high := bits / twoTo 74 % twoTo 48
  let middle := bits / twoTo 62 % twoTo 12
  let low := bits % twoTo 62
  ofNat
    (high * twoTo 80 + 4 * twoTo 76 + middle * twoTo 64 +
      2 * twoTo 62 + low)

------------------------------------------------------------
-- Printing
------------------------------------------------------------

/- The lengths of the groups of digits. -/
def groupLengths : List Nat :=
  [8, 4, 4, 4, 12]

/- The 32 digits of an identifier. -/
def hexDigits
    (u : Uuid) : List Char :=
  (List.range 32).map fun i =>
    Nat.digitChar (u.value / twoTo (4 * (31 - i)) % 16)

/- Put hyphens between groups of the given lengths. -/
def hyphenate :
    List Nat → List Char → List Char
| [], cs => cs
| [_], cs => cs
| n :: ns, cs => cs.take n ++ '-' :: hyphenate ns (cs.drop n)

/- The hyphenated form in lower case, as characters. -/
def toChars
    (u : Uuid) : List Char :=
  hyphenate groupLengths u.hexDigits

/- The hyphenated form in lower case. -/
def toText
    (u : Uuid) : String :=
  String.ofList u.toChars

instance : ToString Uuid :=
  ⟨toText⟩

------------------------------------------------------------
-- Reading
------------------------------------------------------------

/- The value of a hexadecimal digit in either case. -/
def hexValue?
    (c : Char) : Option Nat :=
  if '0' ≤ c ∧ c ≤ '9' then some (c.toNat - '0'.toNat)
  else if 'a' ≤ c ∧ c ≤ 'f' then some (c.toNat - 'a'.toNat + 10)
  else if 'A' ≤ c ∧ c ≤ 'F' then some (c.toNat - 'A'.toNat + 10)
  else none

/- The identifier written by 32 digits. -/
def ofHexDigits?
    (cs : List Char) : Option Uuid :=
  if cs.length = 32 then
    (cs.foldlM (fun n c => (hexValue? c).map (16 * n + ·)) 0).map ofNat
  else
    none

/- Take hyphens out from between groups of the given lengths. -/
def unhyphenate? :
    List Nat → List Char → Option (List Char)
| [], cs => if cs.isEmpty then some [] else none
| [n], cs => if cs.length = n then some cs else none
| n :: ns, cs =>
    match cs.drop n with
    | '-' :: rest => (unhyphenate? ns rest).map (cs.take n ++ ·)
    | _ => none

/- Read the hyphenated form. -/
def ofHyphenated?
    (cs : List Char) : Option Uuid :=
  (unhyphenate? groupLengths cs).bind ofHexDigits?

/- What stands in front of an identifier in a URN. -/
def urnMark : List Char :=
  "urn:uuid:".toList

/- Read any of the four written forms. -/
def ofChars?
    (cs : List Char) : Option Uuid :=
  match cs.length with
  | 32 => ofHexDigits? cs
  | 36 => ofHyphenated? cs
  | 38 =>
      if cs.head? = some '{' ∧ cs.getLast? = some '}' then
        ofHyphenated? ((cs.drop 1).take 36)
      else
        none
  | 45 =>
      if (cs.take 9).map Char.toLower = urnMark then
        ofHyphenated? (cs.drop 9)
      else
        none
  | _ => none

/- Read an identifier from a text. -/
def ofText?
    (s : String) : Option Uuid :=
  ofChars? s.toList

end Uuid

end OrderDesk
