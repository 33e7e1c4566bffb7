import OrderDesk.Json.Basic

/-
  This file defines how the parts of a record are found in a
  JSON value.

  A record is written as an object, whose members may stand
  in any order, or as an array of all its fields. Members
  that are no fields are passed over, a field that is given
  twice is not accepted. An alternative of an enumeration is
  a string, or an object with the string as its only key and
  null as its value.

  Key definitions include:
    * `Json.text?`
    * `Json.choice?`
    * `Json.fields?`
    * `Json.optional?`
    * `Json.isStrict`
-/

namespace OrderDesk

namespace Json

------------------------------------------------------------
-- Strings And Alternatives
------------------------------------------------------------

/- The text of a string. -/
def text? :
    Json → Option String
| string s => s
| _ => none

/- The name of an alternative of an enumeration. -/
def choice? :
    Json → Option String
| string s => s
| object [(key, null)] true => key
| _ => none

/- The alternative that a value names, given the name of each. -/
def oneOf?
    {α : Type}
    (name : α → String)
    (all : List α)
    (j : Json) : Option α :=
  j.choice?.bind fun s => all.find? fun a => name a = s

------------------------------------------------------------
-- Records
------------------------------------------------------------

/-
  The members that are fields. Nothing if a field is given
  twice or a key has no text.
-/
def known?
    (names : List String) :
    List (Option String × Json) → Option (List (String × Json))
| [] => some []
| (none, _) :: _ => none
| (some key, value) :: rest =>
    (known? names rest).bind fun others =>
      if key ∉ names then
        some others
      else if (others.lookup key).isSome then
        none
      else
        some ((key, value) :: others)

/-
  The fields of a record in the order of their names; a
  field that is not given has no value.
-/
def fields?
    (names : List String) :
    Json → Option (List (Option Json))
| object members true =>
    (known? names members).map fun given =>
      names.map fun name => given.lookup name
| array items true =>
    if items.length = names.length then
      some (items.map some)
    else
      none
| _ => none

/- A field that may be null or not given. -/
def optional?
    {α : Type}
    (read : Json → Option α) :
    Option Json → Option (Option α)
| none => some none
| some null => some none
| some value => (read value).map some

------------------------------------------------------------
-- Strict Values
------------------------------------------------------------

mutual

/-
  Every string and key has a text, every number is in range
  and every bracket is closed.
-/
def isStrict :
    Json → Bool
| null => true
| bool _ => true
| number numeral => numeral.number?.isSome
| string s => s.isSome
| array items closed => closed && allStrict items
| object members closed => closed && membersStrict members

/- Every item is strict. -/
def allStrict :
    List Json → Bool
| [] => true
| item :: rest => item.isStrict && allStrict rest

/- Every member is strict. -/
def membersStrict :
    List (Option String × Json) → Bool
| [] => true
| (key, value) :: rest =>
    key.isSome && value.isStrict && membersStrict rest

end

end Json

end OrderDesk
