/-
  This file defines the powers that bounds, scales and
  layouts are made of. They are natural numbers, and a
  negative exponent is written as a divisor.

  Key definitions include:
    * `twoTo`
    * `tenTo`
-/

namespace OrderDesk

/- The power of two with the exponent `n`. -/
def twoTo
    (n : Nat) : Nat :=
  Nat.pow 2 n

/- The power of ten with the exponent `n`. -/
def tenTo
    (n : Nat) : Nat :=
  Nat.pow 10 n

theorem twoTo_pos
    (n : Nat) :
    0 < twoTo n :=
  Nat.pow_pos (by decide)

theorem tenTo_pos
    (n : Nat) :
    0 < tenTo n :=
  Nat.pow_pos (by decide)

end OrderDesk
