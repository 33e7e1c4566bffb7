import OrderDesk.Message.Header

/-
  This file defines where the stamps of new messages come
  from: a row of random numbers, no two of them equal, and a
  clock that counts milliseconds from a known point in time.

  Key definitions include:
    * `Stamps`
    * `Stamps.next`
-/

namespace OrderDesk

/-
  A supply of stamps: the point in time at which the clock
  stood at zero, and the number of the next identity.
-/
structure Stamps where
  origin : Timestamp
  count : Nat
deriving DecidableEq

namespace Stamps

/- The time that a clock shows. -/
def time
    (stamps : Stamps)
    (now : Nat) : Timestamp :=
  ⟨stamps.origin.seconds + now / 1000,
    stamps.origin.nanos + now % 1000 * tenTo 6⟩

/- Take a stamp. -/
def next
    (now : Nat)
    (stamps : Stamps) : Stamp × Stamps :=
  (⟨Uuid.ofRandom stamps.count, stamps.time now⟩,
    { stamps with count := stamps.count + 1 })

end Stamps

end OrderDesk
