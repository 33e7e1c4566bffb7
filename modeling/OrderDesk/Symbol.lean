import OrderDesk.Text.Uppercase

/-
  This file defines the names of traded instruments.

  Key definitions include:
    * `Symbol`
    * `Symbol.ofText`
-/

namespace OrderDesk

/- The name of an instrument, such as `BTC/USDT`. -/
structure Symbol where
  text : String
deriving DecidableEq

namespace Symbol

/- The symbol named by a text in any letter case. -/
def ofText
    (s : String) : Symbol :=
  ⟨Uppercase.ofText s⟩

instance : ToString Symbol :=
  ⟨Symbol.text⟩

end Symbol

end OrderDesk
