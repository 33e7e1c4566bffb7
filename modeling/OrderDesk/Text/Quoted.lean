/-
  This file defines how a text is shown between quotes, so
  that every character of it can be seen. Quotes,
  backslashes and characters that show nothing of their own
  are escaped.

  Key definitions include:
    * `Quoted.isHidden`
    * `Quoted.ofText`
-/

namespace OrderDesk

namespace Quoted

/-
  Ranges of characters that show nothing of their own:
  controls, spaces other than the common one, combining
  marks, marks of format and private characters.
-/
def hiddenRanges : List (Nat × Nat) :=
  [(0x00, 0x1F), (0x7F, 0xA0), (0xAD, 0xAD), (0x300, 0x36F),
    (0x483, 0x489), (0x591, 0x5BD), (0x600, 0x605),
    (0x610, 0x61A), (0x61C, 0x61C), (0x64B, 0x65F),
    (0x1680, 0x1680), (0x180B, 0x180F), (0x1AB0, 0x1ACE),
    (0x1DC0, 0x1DFF), (0x2000, 0x200F), (0x2028, 0x202F),
    (0x205F, 0x206F), (0x20D0, 0x20F0), (0x302A, 0x302F),
    (0x3000, 0x3000), (0x3099, 0x309A), (0xD800, 0xF8FF),
    (0xFE00, 0xFE0F), (0xFE20, 0xFE2F), (0xFEFF, 0xFEFF),
    (0xFFF0, 0xFFFB), (0xE0000, 0x10FFFF)]

/- A character that shows nothing of its own. -/
def isHidden
    (c : Char) : Bool :=
  hiddenRanges.any fun (low, high) =>
    decide (low ≤ c.toNat ∧ c.toNat ≤ high)

/- A character between quotes. -/
def escape
    (c : Char) : List Char :=
  if c = '"' then ['\\', '"']
  else if c = '\\' then ['\\', '\\']
  else if c = '\n' then ['\\', 'n']
  else if c = '\r' then ['\\', 'r']
  else if c = '\t' then ['\\', 't']
  else if c.toNat = 0 then ['\\', '0']
  else if isHidden c then
    ['\\', 'u', '{'] ++ Nat.toDigits 16 c.toNat ++ ['}']
  else [c]

/- A text between quotes. -/
def ofText
    (s : String) : String :=
  String.ofList ('"' :: (s.toList.flatMap escape ++ ['"']))

end Quoted

end OrderDesk
