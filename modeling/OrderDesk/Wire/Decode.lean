import OrderDesk.Json.Field
import OrderDesk.Json.Reader
import OrderDesk.Validation

/-
  This file defines how a JSON text is decoded, and what can
  be wrong with it: either it does not have the form that is
  asked for, or it has but says something invalid. The first
  thing that is wrong counts.

  Key definitions include:
    * `DecodeError`
    * `decode`
    * `wellFormed`
-/

namespace OrderDesk

namespace Wire

/- What is wrong with a JSON text. -/
inductive DecodeError where
  | malformed
  | invalid (e : ValidationError)
deriving DecidableEq

/- What a value decodes to when only its form can be wrong. -/
def wellFormed
    {α : Type} :
    Option α → Except DecodeError α
| some a => .ok a
| none => .error .malformed

/-
  Decode a text. What follows a complete value is looked at
  only after the value has been accepted.
-/
def decode
    {α : Type}
    (read : Json → Except DecodeError α)
    (s : String) : Except DecodeError α :=
  let document := Json.Document.ofText s
  match document.root with
  | none => .error .malformed
  | some root =>
      (read root).bind fun a =>
        if document.whole then .ok a else .error .malformed

end Wire

end OrderDesk
