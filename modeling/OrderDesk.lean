import OrderDesk.Mailbox.Probe
import OrderDesk.Main
import OrderDesk.Throttle.Line
import OrderDesk.Timer.Board
import OrderDesk.Venue.Session
import OrderDesk.Wire.Config
import OrderDesk.Wire.Message
import OrderDesk.Proofs.Order.Replay
import OrderDesk.Proofs.Engine.Reaction
import OrderDesk.Proofs.Engine.History
import OrderDesk.Proofs.Decimal.Rounding
import OrderDesk.Proofs.Decimal.Arithmetic
import OrderDesk.Proofs.Decimal.Quotient
import OrderDesk.Proofs.Decimal.Range
import OrderDesk.Proofs.Order.Booking
import OrderDesk.Proofs.Engine.Fills
import OrderDesk.Proofs.Timer.Firing
import OrderDesk.Proofs.Desk.Floor
import OrderDesk.Proofs.Venue.Reaction
import OrderDesk.Proofs.Desk.Cargo
import OrderDesk.Proofs.Desk.Stage
import OrderDesk.Proofs.Desk.Agreement
import OrderDesk.Proofs.Desk.Schedule
import OrderDesk.Proofs.Desk.Valuation
import OrderDesk.Proofs.Desk.Limits
import OrderDesk.Proofs.Throttle.Pace
import OrderDesk.Proofs.Engine.Gatekeeping
import OrderDesk.Proofs.Desk.Answers
import OrderDesk.Proofs.Engine.Isolation
import OrderDesk.Proofs.Venue.Course
import OrderDesk.Proofs.Venue.Timeliness
import OrderDesk.Proofs.Mailbox.Delivery
import OrderDesk.Proofs.Mailbox.Routing
import OrderDesk.Proofs.Mailbox.Guise
import OrderDesk.Proofs.Mailbox.Invocation
import OrderDesk.Proofs.Mailbox.Faults
import OrderDesk.Proofs.Mailbox.Network
import OrderDesk.Proofs.Text.Digits
import OrderDesk.Proofs.Json.Token
import OrderDesk.Proofs.Json.RoundTrip
import OrderDesk.Proofs.Json.Record
import OrderDesk.Proofs.Text.Uuid
import OrderDesk.Proofs.Text.Calendar
import OrderDesk.Proofs.Text.Timestamp
import OrderDesk.Proofs.Wire.Header
import OrderDesk.Proofs.Binary64.Rounding
import OrderDesk.Proofs.Binary64.Shortest
import OrderDesk.Proofs.Json.Numeral
import OrderDesk.Proofs.Decimal.Plain
import OrderDesk.Proofs.Wire.Decimal
import OrderDesk.Proofs.Wire.Order
import OrderDesk.Proofs.Order.Offers
import OrderDesk.Proofs.Order.Lifecycle
import OrderDesk.Proofs.Engine.Requests
import OrderDesk.Proofs.Desk.Correlation
import OrderDesk.Proofs.Engine.Census
import OrderDesk.Proofs.Desk.Beats
import OrderDesk.Proofs.Desk.Docket
import OrderDesk.Proofs.Desk.Fate
import OrderDesk.Proofs.Desk.Tally
import OrderDesk.Proofs.Desk.Outcome
import OrderDesk.Proofs.Desk.Deeds
import OrderDesk.Proofs.Order.Atomicity
import OrderDesk.Proofs.Order.Projection
import OrderDesk.Proofs.Order.Average
import OrderDesk.Proofs.RiskGate.Notional
import OrderDesk.Proofs.Decimal.Monotone
import OrderDesk.Proofs.RiskGate.Monotone
import OrderDesk.Proofs.Throttle.Departure
import OrderDesk.Proofs.Engine.Faultless
import OrderDesk.Proofs.Text.Uppercase
import OrderDesk.Proofs.Wire.Symbol
import OrderDesk.Timer.Handle
import OrderDesk.Proofs.Timer.Custody
import OrderDesk.Proofs.Timer.Account
import OrderDesk.Proofs.Timer.Tracking
import OrderDesk.Proofs.Timer.Punctuality
