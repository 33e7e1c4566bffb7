import OrderDesk.Config.Source
import OrderDesk.Decimal.Text
import OrderDesk.Toml.Document

/-
  This file defines how settings are read from a TOML text.
  Each section is a table or an array of its first fields in
  order.

  Key definitions include:
    * `Toml.settings`
    * `ConfigError`
    * `Config.ofToml`
    * `Config.load`
-/

namespace OrderDesk

namespace Toml

namespace Value

/- The text of a string. -/
def text? :
    Value → Option String
| text s => some s
| _ => none

/- The number that an integer denotes, unless it is negative. -/
def natural? :
    Value → Option Nat
| integer n => if 0 ≤ n then some n.toNat else none
| _ => none

/- The decimal that a number or a string denotes. -/
def decimal? :
    Value → Option Decimal
| integer n => Decimal.ofInt? n
| real x => x.bind Decimal.ofBinary64?
| text s => Decimal.ofText? s
| _ => none

/- The value holds nothing. -/
def isEmpty :
    Value → Bool
| array items => items.isEmpty
| table entries => entries.isEmpty
| _ => false

/-
  The name of an alternative: a string, or the only key of a
  table whose value holds nothing.
-/
def choice? :
    Value → Option String
| text s => some s
| table [(name, v)] => if v.isEmpty then some name else none
| _ => none

/-
  The fields of a record. An array may be shorter or longer.
  A date or time mentions no field.
-/
def fields?
    (names : List String) :
    Value → Option (List (Option Value))
| table entries => some (names.map fun name => entries.lookup name)
| array items =>
    some ((List.range names.length).map fun i => items[i]?)
| moment => some (names.map fun _ => none)
| _ => none

end Value

/- How settings are taken out of values. -/
def settings : Source Value where
  fields := Value.fields?
  text := Value.text?
  natural := Value.natural?
  decimal := Value.decimal?
  choice := Value.choice?

end Toml

------------------------------------------------------------
-- Settings
------------------------------------------------------------

/- Why a file cannot be read, with the number of the cause. -/
structure FileFault where
  reason : String
  code : Nat
deriving DecidableEq

namespace FileFault

/- There is nothing under the path. -/
def notFound : FileFault :=
  ⟨"No such file or directory", 2⟩

/- The path leads to a directory. -/
def isDirectory : FileFault :=
  ⟨"Is a directory", 21⟩

/- The cause as text. -/
def message
    (e : FileFault) : String :=
  e.reason ++ " (os error " ++ toString e.code ++ ")"

end FileFault

/- Why there are no settings. -/
inductive ConfigError where
  | unreadable (path : String) (fault : FileFault)
  | malformed
  | invalid (e : ValidationError)
deriving DecidableEq

namespace Config

/- Read settings that a desk can run with. -/
def ofToml
    (s : String) : Except ConfigError Config :=
  match (Toml.ofText? s).bind (read? Toml.settings) with
  | none => .error .malformed
  | some config =>
      match config.validate with
      | .ok () => .ok config
      | .error e => .error (.invalid e)

/- Read settings from a file, given what reading the file gave. -/
def load
    (path : String)
    (content : Except FileFault String) :
    Except ConfigError Config :=
  match content with
  | .error fault => .error (.unreadable path fault)
  | .ok s => ofToml s

end Config

/- The error as it is shown, if it is more than a fault of form. -/
def ConfigError.message? :
    ConfigError → Option String
| .unreadable path fault =>
    some ("Config: Failed to read " ++ path ++ ": " ++ fault.message)
| .malformed => none
| .invalid e => some e.message

end OrderDesk
