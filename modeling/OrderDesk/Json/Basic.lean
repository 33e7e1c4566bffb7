import OrderDesk.Json.Numeral
import OrderDesk.Uuid

/-
  This file defines JSON values and their compact text.

  A value keeps what its text shows: the order and the
  repetitions of members, the digits of numbers, and whether
  the text went on to the closing bracket of each array and
  object. A string or key whose escapes denote no text has
  no text here.

  Key definitions include:
    * `Json`
    * `Json.text`
    * `Json.record`
    * `Json.depth`
    * `Json.toChars`
    * `Json.toText`
-/

namespace OrderDesk

------------------------------------------------------------
-- Values
------------------------------------------------------------

/- A JSON value. -/
inductive Json where
  | null
  | bool (value : Bool)
  | number (numeral : Numeral)
  | string (text : Option String)
  | array (items : List Json) (closed : Bool)
  | object (members : List (Option String × Json)) (closed : Bool)

namespace Json

instance : Inhabited Json :=
  ⟨null⟩

/- A string with the given text. -/
def text
    (s : String) : Json :=
  string (some s)

/- A number with no digits after the point. -/
def natural
    (n : Nat) : Json :=
  number (Numeral.ofNat n)

/- An object with the given members. -/
def record
    (members : List (String × Json)) : Json :=
  object (members.map fun (key, value) => (some key, value)) true

/- A value that may be absent. -/
def nullable
    {α : Type}
    (encode : α → Json) :
    Option α → Json
| none => null
| some a => encode a

------------------------------------------------------------
-- Depth
------------------------------------------------------------

mutual

/- How many arrays and objects are nested in a value. -/
def depth :
    Json → Nat
| array items _ => itemsDepth items + 1
| object members _ => membersDepth members + 1
| _ => 0

/- The greatest depth among items. -/
def itemsDepth :
    List Json → Nat
| [] => 0
| item :: rest => max item.depth (itemsDepth rest)

/- The greatest depth among members. -/
def membersDepth :
    List (Option String × Json) → Nat
| [] => 0
| (_, value) :: rest => max value.depth (membersDepth rest)

end

------------------------------------------------------------
-- Compact Text
------------------------------------------------------------

/-
  A character inside a string. Quotes, backslashes and
  control characters are escaped, the common ones by a
  letter.
-/
def escape
    (c : Char) : List Char :=
  if c = '"' then ['\\', '"']
  else if c = '\\' then ['\\', '\\']
  else if c = '\n' then ['\\', 'n']
  else if c = '\r' then ['\\', 'r']
  else if c = '\t' then ['\\', 't']
  else if c.toNat = 8 then ['\\', 'b']
  else if c.toNat = 12 then ['\\', 'f']
  else if c.toNat < 32 then
    ['\\', 'u', '0', '0', Nat.digitChar (c.toNat / 16),
      Nat.digitChar (c.toNat % 16)]
  else [c]

/- A string with its quotes. -/
def quote
    (s : String) : List Char :=
  '"' :: (s.toList.flatMap escape ++ ['"'])

/- The characters of a boolean. -/
def boolChars
    (b : Bool) : List Char :=
  if b then "true".toList else "false".toList

mutual

/- The compact text of a value, as characters. -/
def toChars :
    Json → List Char
| null => "null".toList
| bool b => boolChars b
| number numeral => numeral.toChars
| string s => quote (s.getD "")
| array items _ => '[' :: (itemChars items ++ [']'])
| object members _ => '{' :: (memberChars members ++ ['}'])

/- The compact text of items, with commas between them. -/
def itemChars :
    List Json → List Char
| [] => []
| [item] => item.toChars
| item :: rest => item.toChars ++ ',' :: itemChars rest

/- The compact text of members, with commas between them. -/
def memberChars :
    List (Option String × Json) → List Char
| [] => []
| [(key, value)] => quote (key.getD "") ++ ':' :: value.toChars
| (key, value) :: rest =>
    quote (key.getD "") ++ ':' :: (value.toChars ++
      ',' :: memberChars rest)

end

/- The compact text of a value. -/
def toText
    (j : Json) : String :=
  String.ofList j.toChars

end Json

end OrderDesk
