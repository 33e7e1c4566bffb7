import OrderDesk.Text.Quoted

/-
  This file defines endpoints: the addresses to which
  messages are sent. Two endpoints are equal if they lead to
  the same target, whatever its name.

  Key definitions include:
    * `Endpoint`
    * `Endpoint.toText`
-/

namespace OrderDesk

/- The address of a target, and the name of the target. -/
structure Endpoint where
  address : Nat
  target : String

namespace Endpoint

instance : BEq Endpoint :=
  ⟨fun a b => a.address == b.address⟩

/- The endpoint as it is shown. -/
def toText
    (e : Endpoint) : String :=
  "Endpoint \x7b target: " ++ Quoted.ofText e.target ++ " \x7d"

end Endpoint

end OrderDesk
