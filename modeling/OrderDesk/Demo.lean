import OrderDesk.Config.Basic
import OrderDesk.Desk

/-
  This file defines a demonstration: a desk with a throttler
  in front of the paper venue is sent a handful of commands
  at once and is left alone for three seconds.

  Five limit orders and a market order are in good order.
  One more limit order has the greatest quantity that is
  allowed at a price that makes it worth too much, and in
  the end the first order is cancelled.

  Key definitions include:
    * `Demo.commands`
    * `Demo.play`
    * `Demo.report`
-/

namespace OrderDesk

namespace Demo

------------------------------------------------------------
-- The Play
------------------------------------------------------------

/- How long the desk is left alone, in milliseconds. -/
def duration : Nat :=
  3000

/- The prices of the limit orders in good order. -/
def prices : List Decimal :=
  (List.range 5).filterMap fun i : Nat => Decimal.ofInt? (100 + i)

/- The market for most of the orders. -/
def bitcoin : Symbol :=
  Symbol.ofText "btc/usdt"

/- The market for the market order. -/
def ether : Symbol :=
  Symbol.ofText "eth/usdt"

/- A limit order to buy, with a number for its identifier. -/
def bid
    (number : Nat)
    (quantity price : Decimal) : SubmitOrder :=
  ⟨OrderId.ofNat number, bitcoin, .buy, .limit, quantity, some price⟩

/- The orders of the demonstration. -/
def orders
    (config : Config) : List SubmitOrder :=
  prices.mapIdx (fun i price => bid (i + 1) (Decimal.ofNat 1) price) ++
  [⟨OrderId.ofNat 6, ether, .sell, .market, Decimal.ofNat 2, none⟩,
    bid 7 config.risk.maxQuantity config.risk.maxNotional]

/- All that the desk is sent. -/
def commands
    (config : Config) : List TradingMessage :=
  (orders config).map .submitOrder ++
    [.cancelOrder ⟨OrderId.ofNat 1⟩]

/- Put payloads into envelopes of commands. -/
def envelopes
    (now : Nat) :
    Stamps →
      List TradingMessage →
        Stamps × List (Envelope TradingMessage)
| stamps, [] => (stamps, [])
| stamps, payload :: payloads =>
    let (stamp, stamps) := stamps.next now
    let (stamps, rest) := envelopes now stamps payloads
    (stamps, Envelope.command stamp payload :: rest)

/- Why the demonstration cannot be given. -/
inductive Refusal where
  | liveMode
  | invalid (e : ValidationError)
deriving DecidableEq

/- The refusal in words. -/
def Refusal.message :
    Refusal → String
| .liveMode =>
    "live mode needs a broker adapter; only the paper venue is available"
| .invalid e => e.message

/- The desk that the settings ask for. -/
def desk
    (config : Config)
    (stamps : Stamps) : Except ValidationError Desk :=
  (Throttler.new Desk.throttlerName config.throttle.intervalMs
    config.throttle.maxPerInterval).map fun throttler =>
      Desk.new
        (RiskGate.new config.risk (some config.paper.referencePrice))
        config.paper (some throttler) stamps

/- Give the demonstration, and leave the desk as it is then. -/
def play
    (config : Config)
    (origin : Timestamp) : Except Refusal Desk :=
  match config.app.mode with
  | .live => .error .liveMode
  | .paper =>
      let (stamps, envelopes) :=
        envelopes 0 ⟨origin, 1⟩ (commands config)
      match desk config stamps with
      | .error e => .error (.invalid e)
      | .ok desk =>
          .ok ((desk.startThrottler.send envelopes).advance
            duration).stopThrottler

------------------------------------------------------------
-- The Report
------------------------------------------------------------

/- A detail of a notice in words. -/
def detailText :
    Detail → String
| .text s => s
| .count n => toString n
| .order id => toString id

/- A notice in words. -/
def noticeText
    (notice : Notice) : String :=
  notice.details.foldl
    (fun line (key, detail) =>
      line ++ " " ++ key ++ "=" ++ detailText detail)
    (notice.level.name ++ " " ++ notice.message)

/- A message that was published, in words. -/
def publicationText
    (time : Nat)
    (envelope : Envelope TradingMessage) : String :=
  let what :=
    match envelope.payload with
    | .orderEvent event => event.kind.name
    | payload => payload.kind.name
  toString time ++ " ms " ++ what ++ " category=" ++
    envelope.category.display ++ " order_id=" ++
      toString envelope.payload.orderId

/- What has become of an order, in words. -/
def orderText
    (order : Order) : String :=
  "final order_id=" ++ toString order.id ++ " symbol=" ++
    toString order.symbol ++ " state=" ++ order.state.display ++
      " filled=" ++ order.filled.toText

/- All that there is to say about a desk, line by line. -/
def report
    (desk : Desk) : List String :=
  desk.published.map (fun (time, envelope) =>
    publicationText time envelope) ++
  desk.notices.map noticeText ++
  desk.engine.blotter.orders.map orderText ++
  ["events=" ++ toString desk.published.length]

end Demo

end OrderDesk
