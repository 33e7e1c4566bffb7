import OrderDesk.Json.Token

/-
  This file defines how tokens are put together to a value.
  A reader takes one token at a time and keeps a stack of
  the arrays and objects that are open. When a token does
  not fit, or the text ends too early, whatever was read so
  far is still a value, with its brackets left open.

  Key definitions include:
    * `Json.Reader`
    * `Json.Reader.step`
    * `Json.Document`
    * `Json.Document.ofText`
-/

namespace OrderDesk

namespace Json

------------------------------------------------------------
-- Open Arrays And Objects
------------------------------------------------------------

/-
  An array or object that is open, with what it holds so
  far, the latest first. The value that comes next in an
  object belongs to `key`.
-/
inductive Frame where
  | array (items : List Json)
  | object (members : List (Option String × Json))
      (key : Option String)

namespace Frame

/- Put a value into an open array or object. -/
def put
    (v : Json) :
    Frame → Frame
| array items => array (v :: items)
| object members key => object ((key, v) :: members) key

/- The value of an array or object whose text ends here. -/
def toJson
    (closed : Bool) :
    Frame → Json
| array items => Json.array items.reverse closed
| object members _ => Json.object members.reverse closed

end Frame

/-
  What a reader expects next. `first` says that an array or
  object was only just opened, so it may be closed at once.
-/
inductive Reader where
  | value (stack : List Frame) (first : Bool)
  | key (stack : List Frame)
      (members : List (Option String × Json)) (first : Bool)
  | colon (stack : List Frame)
      (members : List (Option String × Json)) (key : Option String)
  | separator (frame : Frame) (stack : List Frame)
  | done (root : Json)

namespace Reader

/- A reader that has read nothing. -/
def start : Reader :=
  value [] false

/- Go on after a value has been read. -/
def complete
    (v : Json) :
    List Frame → Reader
| [] => done v
| frame :: stack => separator (frame.put v) stack

/- Take one token; nothing when it does not fit. -/
def step
    (reader : Reader)
    (t : Token) : Option Reader :=
  match reader, t with
  | value stack _, .openArray => some (value (.array [] :: stack) true)
  | value stack _, .openObject => some (key stack [] true)
  | value stack _, .null => some (complete Json.null stack)
  | value stack _, .bool b => some (complete (Json.bool b) stack)
  | value stack _, .number n => some (complete (Json.number n) stack)
  | value stack _, .string s => some (complete (Json.string s) stack)
  | value (.array items :: stack) true, .closeArray =>
      some (complete ((Frame.array items).toJson true) stack)
  | key stack members _, .string s => some (colon stack members s)
  | key stack members true, .closeObject =>
      some (complete (Json.object members.reverse true) stack)
  | colon stack members k, .colon =>
      some (value (.object members k :: stack) false)
  | separator (.array items) stack, .comma =>
      some (value (.array items :: stack) false)
  | separator (.array items) stack, .closeArray =>
      some (complete ((Frame.array items).toJson true) stack)
  | separator (.object members _) stack, .comma =>
      some (key stack members false)
  | separator (.object members k) stack, .closeObject =>
      some (complete ((Frame.object members k).toJson true) stack)
  | _, _ => none

/- Leave brackets open: the value of a stack with an unfinished part. -/
def abandon
    (part : Option Json) :
    List Frame → Option Json
| [] => part
| frame :: stack =>
    let frame :=
      match part with
      | none => frame
      | some v => frame.put v
    abandon (some (frame.toJson false)) stack

/- What a reader has read when the text goes no further. -/
def stop :
    Reader → Option Json
| value stack _ => abandon none stack
| key stack members _ =>
    abandon none (.object members none :: stack)
| colon stack members _ =>
    abandon none (.object members none :: stack)
| separator frame stack => abandon none (frame :: stack)
| done root => some root

/-
  Take all tokens. The flag says that they make exactly one
  value.
-/
def run
    (reader : Reader) :
    List Token → Option Json × Bool
| [] =>
    match reader with
    | done root => (some root, true)
    | _ => (reader.stop, false)
| t :: ts =>
    match reader.step t with
    | some next => run next ts
    | none => (reader.stop, false)

end Reader

------------------------------------------------------------
-- Documents
------------------------------------------------------------

/-
  A JSON text: the value that it begins with, as far as it
  goes, and whether it is that value and nothing else.
-/
structure Document where
  root : Option Json
  whole : Bool

namespace Document

/- The document that a text holds. -/
def ofChars
    (cs : List Char) : Document :=
  let (tokens, scanned) := Token.scan cs
  let (root, read) := Reader.start.run tokens
  ⟨root, scanned && read⟩

/- The document that a text holds. -/
def ofText
    (s : String) : Document :=
  ofChars s.toList

end Document

end Json

end OrderDesk
