import OrderDesk.Power

/-
  This file defines lengths of time as whole seconds and
  nanoseconds.

  Key definitions include:
    * `Duration`
    * `Duration.ofMillis`
-/

namespace OrderDesk

/- A length of time. -/
structure Duration where
  seconds : Nat
  nanos : Nat
deriving DecidableEq

namespace Duration

/- The length of a number of milliseconds. -/
def ofMillis
    (n : Nat) : Duration :=
  ⟨n / 1000, n % 1000 * tenTo 6⟩

end Duration

end OrderDesk
