import OrderDesk.Config.Source
import OrderDesk.Wire.Order

/-
  This file defines the JSON form of settings. Each section
  is an object or an array of its first fields in order.

  Key definitions include:
    * `Config.toJson`
    * `Config.ofJson?`
-/

namespace OrderDesk

namespace Json

/-
  The fields of a record whose fields have standard values:
  an array may stop early.
-/
def leadingFields?
    (names : List String) :
    Json → Option (List (Option Json))
| array items true =>
    if items.length ≤ names.length then
      some
        (items.map some ++
          List.replicate (names.length - items.length) none)
    else
      none
| j => j.fields? names

/- The natural number that a value denotes, if it has 64 bits. -/
def natural? :
    Json → Option Nat
| number numeral =>
    match numeral.number? with
    | some (.natural n) => some n
    | _ => none
| _ => none

/- How settings are taken out of JSON values. -/
def settings : Source Json where
  fields := leadingFields?
  text := text?
  natural := natural?
  decimal := Decimal.ofJson?
  choice := choice?

end Json

namespace AppSettings

/- The object that stands for how the program runs. -/
def toJson
    (settings : AppSettings) : Json :=
  Json.record
    [("mode", Json.text settings.mode.keyword),
      ("log_level", Json.text settings.logLevel)]

end AppSettings

namespace ThrottleSettings

/- The object that stands for how many commands may go out. -/
def toJson
    (settings : ThrottleSettings) : Json :=
  Json.record
    [("interval_ms", Json.natural settings.intervalMs),
      ("max_per_interval", Json.natural settings.maxPerInterval)]

end ThrottleSettings

namespace RiskLimits

/- The object that stands for the limits of orders. -/
def toJson
    (limits : RiskLimits) : Json :=
  Json.record
    [("max_order_quantity", limits.maxQuantity.toJson),
      ("max_order_notional", limits.maxNotional.toJson)]

end RiskLimits

namespace PaperSettings

/- The object that stands for how the simulated venue behaves. -/
def toJson
    (settings : PaperSettings) : Json :=
  Json.record
    [("fill_latency_ms", Json.natural settings.fillLatencyMs),
      ("reference_price", settings.referencePrice.toJson)]

end PaperSettings

namespace Config

/- The object that stands for settings. -/
def toJson
    (config : Config) : Json :=
  Json.record
    [("app", config.app.toJson),
      ("throttle", config.throttle.toJson),
      ("risk", config.risk.toJson),
      ("paper", config.paper.toJson)]

/- Read settings. -/
def ofJson?
    (j : Json) : Option Config :=
  read? Json.settings j

end Config

end OrderDesk
