/-
  This file defines the characters that Unicode counts as
  white space.

  Key definitions include:
    * `isBlank`
    * `skipBlanks`
-/

namespace OrderDesk

/- The character is white space. -/
def isBlank
    (c : Char) : Bool :=
  let n := c.toNat
  decide (9 ≤ n ∧ n ≤ 13) || n == 0x20 || n == 0x85 ||
    n == 0xA0 || n == 0x1680 || decide (0x2000 ≤ n ∧ n ≤ 0x200A) ||
    n == 0x2028 || n == 0x2029 || n == 0x202F || n == 0x205F ||
    n == 0x3000

/- What is left of a text behind the white space at its front. -/
def skipBlanks
    (cs : List Char) : List Char :=
  cs.dropWhile isBlank

end OrderDesk
