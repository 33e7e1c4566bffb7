import OrderDesk.Duration
import OrderDesk.RiskGate
import OrderDesk.Validation

/-
  This file defines the settings of a desk, the values they
  have when nothing is said about them, and which values a
  desk can run with.

  Key definitions include:
    * `RunMode`
    * `Config`
    * `Config.standard`
    * `Config.validate`
-/

namespace OrderDesk

------------------------------------------------------------
-- Sections
------------------------------------------------------------

/- Whether orders go to a simulated venue or to a real one. -/
inductive RunMode where
  | paper
  | live
deriving DecidableEq

namespace RunMode

/- Every mode. -/
def all : List RunMode :=
  [paper, live]

/- The name of the mode. -/
def name :
    RunMode → String
| paper => "Paper"
| live => "Live"

/- The mode as it is written in settings. -/
def keyword :
    RunMode → String
| paper => "paper"
| live => "live"

end RunMode

/- How the program runs. -/
structure AppSettings where
  mode : RunMode
  logLevel : String
deriving DecidableEq

/- How many commands may go out in which time. -/
structure ThrottleSettings where
  intervalMs : Nat
  maxPerInterval : Nat
deriving DecidableEq

namespace ThrottleSettings

/- The length of a window. -/
def interval
    (settings : ThrottleSettings) : Duration :=
  Duration.ofMillis settings.intervalMs

end ThrottleSettings

/-
  How the simulated venue behaves: the time from accepting
  an order to filling it, and the price of market orders.
-/
structure PaperSettings where
  fillLatencyMs : Nat
  referencePrice : Decimal
deriving DecidableEq

namespace PaperSettings

/- The time from accepting an order to filling it. -/
def fillLatency
    (settings : PaperSettings) : Duration :=
  Duration.ofMillis settings.fillLatencyMs

end PaperSettings

------------------------------------------------------------
-- Settings
------------------------------------------------------------

/- The settings of a desk. -/
structure Config where
  app : AppSettings
  throttle : ThrottleSettings
  risk : RiskLimits
  paper : PaperSettings
deriving DecidableEq

namespace Config

/- The settings that hold when nothing is said about them. -/
def standard : Config where
  app := ⟨.paper, "info"⟩
  throttle := ⟨1000, 10⟩
  risk := ⟨Decimal.ofNat 1000, Decimal.ofNat 50000⟩
  paper := ⟨50, Decimal.ofNat 100⟩

/- Every setting that has to be positive is. -/
def validate
    (config : Config) : Except ValidationError Unit :=
  if config.throttle.intervalMs = 0 then
    .error (.settingNotPositive .throttleInterval)
  else if config.throttle.maxPerInterval = 0 then
    .error (.settingNotPositive .throttleLimit)
  else if config.risk.maxQuantity ≤ 0 then
    .error (.settingNotPositive .orderQuantity)
  else if config.risk.maxNotional ≤ 0 then
    .error (.settingNotPositive .orderNotional)
  else if config.paper.referencePrice ≤ 0 then
    .error (.settingNotPositive .referencePrice)
  else
    .ok ()

end Config

end OrderDesk
