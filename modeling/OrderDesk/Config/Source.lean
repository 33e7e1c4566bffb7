import OrderDesk.Config.Basic

/-
  This file defines how settings are found in a document,
  whatever its format. A format says how its values are
  taken apart; settings that a document does not mention
  have their standard values.

  Key definitions include:
    * `Source`
    * `Config.read?`
-/

namespace OrderDesk

/-
  How the values of a format are taken apart. `fields` finds
  the values of named fields; a field that is not mentioned
  has none.
-/
structure Source (V : Type) where
  fields : List String → V → Option (List (Option V))
  text : V → Option String
  natural : V → Option Nat
  decimal : V → Option Decimal
  choice : V → Option String

namespace Source

variable {V α : Type}

/- A setting, or its standard value. -/
def setting
    (read : V → Option α)
    (standard : α) :
    Option V → Option α
| none => some standard
| some v => read v

/- Read a run mode. -/
def mode
    (S : Source V)
    (v : V) : Option RunMode :=
  (S.choice v).bind fun s =>
    RunMode.all.find? fun mode => mode.keyword = s

/- Read how the program runs. -/
def app
    (S : Source V)
    (v : V) : Option AppSettings :=
  let standard := Config.standard.app
  match S.fields ["mode", "log_level"] v with
  | some [mode, logLevel] => do
      return {
        mode := ← setting S.mode standard.mode mode
        logLevel := ← setting S.text standard.logLevel logLevel }
  | _ => none

/- Read how many commands may go out. -/
def throttle
    (S : Source V)
    (v : V) : Option ThrottleSettings :=
  let standard := Config.standard.throttle
  match S.fields ["interval_ms", "max_per_interval"] v with
  | some [interval, limit] => do
      return {
        intervalMs := ← setting S.natural standard.intervalMs interval
        maxPerInterval :=
          ← setting S.natural standard.maxPerInterval limit }
  | _ => none

/- Read the limits of orders. -/
def risk
    (S : Source V)
    (v : V) : Option RiskLimits :=
  let standard := Config.standard.risk
  match S.fields ["max_order_quantity", "max_order_notional"] v with
  | some [quantity, notional] => do
      return {
        maxQuantity := ← setting S.decimal standard.maxQuantity quantity
        maxNotional :=
          ← setting S.decimal standard.maxNotional notional }
  | _ => none

/- Read how the simulated venue behaves. -/
def paper
    (S : Source V)
    (v : V) : Option PaperSettings :=
  let standard := Config.standard.paper
  match S.fields ["fill_latency_ms", "reference_price"] v with
  | some [latency, price] => do
      return {
        fillLatencyMs :=
          ← setting S.natural standard.fillLatencyMs latency
        referencePrice :=
          ← setting S.decimal standard.referencePrice price }
  | _ => none

end Source

/- Read the settings in a document. -/
def Config.read?
    {V : Type}
    (S : Source V)
    (v : V) : Option Config :=
  match S.fields ["app", "throttle", "risk", "paper"] v with
  | some [app, throttle, risk, paper] => do
      return {
        app := ← Source.setting S.app standard.app app
        throttle := ← Source.setting S.throttle standard.throttle throttle
        risk := ← Source.setting S.risk standard.risk risk
        paper := ← Source.setting S.paper standard.paper paper }
  | _ => none

end OrderDesk
