import OrderDesk.Proofs.Venue.Reaction
import OrderDesk.Throttle.Window

/-
  This file defines the trading floor: an engine and a paper
  venue, the queues between them, and the fills that wait
  for their time. Nothing is said about when anything
  happens. Every queue and every timer moves on its own, in
  any order.

  What a move does is seen from one order: it changes little
  of what there is to see of that order.

  Key definitions include:
    * `Floor`
    * `Move`
    * `Floor.move`
    * `Floor.play`
    * `Sight`
    * `SightMove`

  Key theorems include:
    * `Floor.move_execute_report`
    * `Floor.sightMove`
-/

namespace OrderDesk

------------------------------------------------------------
-- The Floor
------------------------------------------------------------

/-
  An engine and a venue. `inbox` waits for the engine,
  `outbox` for the venue, and `reports` are on the way from
  the venue to the inbox. Commands of the engine go through
  a window first, if there is one. A `pending` fill waits
  for its timer; an `executed` one has taken its order off
  the book of the venue and is still to be reported.
-/
structure Floor where
  engine : Engine
  venue : PaperVenue
  window : Option (Window (Envelope TradingMessage))
  inbox : List (Envelope TradingMessage)
  outbox : List (Envelope TradingMessage)
  reports : List (Envelope TradingMessage)
  pending : List PendingFill
  executed : List PendingFill
  published : List (Envelope TradingMessage)

/-
  What can happen next: a client asks for something; the
  first of a queue is taken; a timer takes an order off the
  book, or reports that it has; the window is started,
  stopped or rolled over; the gate is shut or opened.
-/
inductive Move where
  | submit (header : Header) (command : SubmitOrder)
  | cancel (header : Header) (cancel : CancelOrder)
  | arrive
  | serve (stamp : Stamp)
  | deliver (stamp : Stamp)
  | execute (fill : PendingFill)
  | report (stamp : Stamp) (fill : PendingFill)
  | start
  | stop
  | roll
  | pause (reason : String)
  | resume

/- A move asks for no order but those that are allowed. -/
def Move.IsAllowed
    (allowed : SubmitOrder → Prop) :
    Move → Prop
| .submit _ command => allowed command
| _ => True

namespace Floor

/- A floor on which nothing has happened. -/
def new
    (gate : RiskGate)
    (settings : PaperSettings)
    (limit : Option { limit : Nat // 0 < limit }) : Floor where
  engine := Engine.new gate
  venue := PaperVenue.new settings true
  window := limit.map fun limit => Window.new limit.1 limit.2
  inbox := []
  outbox := []
  reports := []
  pending := []
  executed := []
  published := []

/- The commands that wait in the window. -/
def waiting
    (floor : Floor) : List (Envelope TradingMessage) :=
  match floor.window with
  | none => []
  | some window => window.buffer

/- Send a command of the engine towards the venue. -/
def command
    (floor : Floor)
    (envelope : Envelope TradingMessage) : Floor :=
  match floor.window with
  | none => { floor with outbox := floor.outbox ++ [envelope] }
  | some window =>
      { floor with
        window := some (window.send envelope).2
        outbox := floor.outbox ++ (window.send envelope).1 }

/- Let the window do something, if there is one. -/
def turnWindow
    (floor : Floor)
    (turn :
      Window (Envelope TradingMessage) →
        List (Envelope TradingMessage) ×
          Window (Envelope TradingMessage)) : Floor :=
  match floor.window with
  | none => floor
  | some window =>
      { floor with
        window := some (turn window).2
        outbox := floor.outbox ++ (turn window).1 }

/- Go on with what came of a message to the engine. -/
def followEngine
    (floor : Floor)
    (step : EngineStep) : Floor :=
  step.commands.foldl command
    { floor with
      engine := step.engine
      published := floor.published ++ step.events }

/- Go on with what came of a message to the venue. -/
def followVenue
    (floor : Floor)
    (step : VenueStep) : Floor :=
  { floor with
    venue := step.venue
    reports := floor.reports ++ step.reports
    pending := floor.pending ++ step.pending.toList }

/- Let a message wait for the engine. -/
def enqueue
    (floor : Floor)
    (envelope : Envelope TradingMessage) : Floor :=
  { floor with inbox := floor.inbox ++ [envelope] }

/- The oldest report arrives. -/
def arrive
    (floor : Floor) : Floor :=
  match floor.reports with
  | [] => floor
  | envelope :: rest =>
      { floor with reports := rest }.enqueue envelope

/- The engine takes its oldest message. -/
def serve
    (floor : Floor)
    (stamp : Stamp) : Floor :=
  match floor.inbox with
  | [] => floor
  | envelope :: rest =>
      match floor.engine.handle stamp envelope with
      | .ok step => { floor with inbox := rest }.followEngine step
      | .error _ => { floor with inbox := rest }

/- The venue takes its oldest message. -/
def deliver
    (floor : Floor)
    (stamp : Stamp) : Floor :=
  match floor.outbox with
  | [] => floor
  | envelope :: rest =>
      { floor with outbox := rest }.followVenue
        (floor.venue.handle stamp envelope)

/-
  The timer of a pending fill fires. If the order is still
  on the book it is taken off and its report is due.
-/
def execute
    (floor : Floor)
    (fill : PendingFill) : Floor :=
  if fill ∈ floor.pending then
    if floor.venue.isResting fill.orderId then
      { floor with
        venue := floor.venue.unrest fill.orderId
        pending := floor.pending.erase fill
        executed := fill :: floor.executed }
    else
      { floor with pending := floor.pending.erase fill }
  else
    floor

/- An executed fill is reported. -/
def report
    (floor : Floor)
    (stamp : Stamp)
    (fill : PendingFill) : Floor :=
  if fill ∈ floor.executed then
    { floor with
      executed := floor.executed.erase fill
      reports :=
        floor.reports ++
          [Envelope.event stamp
            (.orderEvent ⟨fill.orderId, .filled fill.fill⟩)] }
  else
    floor

/- Make a move. -/
def move
    (floor : Floor) :
    Move → Floor
| .submit header command =>
    floor.enqueue ⟨header, .submitOrder command⟩
| .cancel header cancel =>
    floor.enqueue ⟨header, .cancelOrder cancel⟩
| .arrive => floor.arrive
| .serve stamp => floor.serve stamp
| .deliver stamp => floor.deliver stamp
| .execute fill => floor.execute fill
| .report stamp fill => floor.report stamp fill
| .start => floor.turnWindow Window.start
| .stop => floor.turnWindow fun window => ([], window.stop)
| .roll => floor.turnWindow Window.roll
| .pause reason => { floor with engine := floor.engine.pause reason }
| .resume => { floor with engine := floor.engine.resume }

/- Make moves one after the other. -/
def play
    (floor : Floor)
    (moves : List Move) : Floor :=
  moves.foldl move floor

/-
  A fill that is executed and reported in one go is what the
  venue does when a timer fires.
-/
theorem move_execute_report
    (floor : Floor)
    (stamp : Stamp)
    (fill : PendingFill)
    (hPending : fill ∈ floor.pending)
    (hResting : floor.venue.isResting fill.orderId = true)
    (hConnected : floor.venue.connected = true) :
    (floor.move (.execute fill)).move (.report stamp fill) =
      { floor with
        pending := floor.pending.erase fill }.followVenue
        (floor.venue.settle stamp fill) := by
  simp [move, execute, report, hPending, hResting, followVenue,
    PaperVenue.settle, hConnected]

/- The message that the engine takes in a move. -/
def served?
    (floor : Floor) :
    Move → Option (Envelope TradingMessage)
| .serve _ => floor.inbox.head?
| _ => none

/-
  If the engine takes the report of a fill, the order can
  account for that fill.
-/
def Accountable
    (floor : Floor)
    (move : Move) : Prop :=
  ∀ envelope ∈ floor.served? move,
    ∀ event ∈ orderEvent? envelope,
      ∀ fill ∈ event.occurrence.fill?,
        ∀ order ∈ floor.engine.blotter.find? event.orderId,
          order.fillTotals? fill ≠ none

instance
    (floor : Floor)
    (move : Move) :
    Decidable (floor.Accountable move) :=
  inferInstanceAs
    (Decidable
      (∀ envelope ∈ floor.served? move,
        ∀ event ∈ orderEvent? envelope,
          ∀ fill ∈ event.occurrence.fill?,
            ∀ order ∈ floor.engine.blotter.find? event.orderId,
              order.fillTotals? fill ≠ none))

/- Every fill that the engine takes in the course of moves is accountable. -/
def AllAccountable :
    Floor → List Move → Prop
| _, [] => True
| floor, move :: rest =>
    floor.Accountable move ∧ AllAccountable (floor.move move) rest

instance decidableAllAccountable :
    (floor : Floor) →
      (moves : List Move) →
        Decidable (floor.AllAccountable moves)
| _, [] => isTrue trivial
| floor, move :: rest =>
    have := decidableAllAccountable (floor.move move) rest
    inferInstanceAs
      (Decidable
        (floor.Accountable move ∧
          AllAccountable (floor.move move) rest))

end Floor

------------------------------------------------------------
-- One Order
------------------------------------------------------------

/-
  What there is to see of one order: the order at the
  engine; its submissions that are on their way to the
  venue; the events about it that are on their way back;
  whether it rests at the venue, and its fills there; and
  what was published about it.
-/
structure Sight where
  order : Option Order
  submitted : List SubmitOrder
  reported : List OrderEvent
  isResting : Bool
  pending : List PendingFill
  executed : List PendingFill
  told : List OrderEvent

/- What there is to see of the order under `id`. -/
def Floor.sight
    (floor : Floor)
    (id : OrderId) : Sight where
  order := floor.engine.blotter.find? id
  submitted := submissionsOf id (floor.outbox ++ floor.waiting)
  reported := eventsAbout id (floor.inbox ++ floor.reports)
  isResting := floor.venue.isResting id
  pending := floor.pending.filter fun fill => fill.orderId = id
  executed := floor.executed.filter fun fill => fill.orderId = id
  told := eventsAbout id floor.published

/-
  What one move can change about an order. The engine opens
  the order, or takes a report of it, which it may have to
  refuse; the venue accepts or cancels it; a fill of it
  lapses, is executed or is reported.
-/
inductive SightMove
    (id : OrderId)
    (sight : Sight) :
    Sight → Prop where
  | idle :
      SightMove id sight sight
  | refused
      (command : SubmitOrder)
      (occurrence : Occurrence)
      (order : Order)
      (reason : String)
      (hNew : sight.order = none)
      (hRefused :
        occurrence = .invalid reason ∨
          occurrence = .denied reason)
      (hApply :
        (Order.new command).apply ⟨id, occurrence⟩ = .ok order) :
      SightMove id sight
        { sight with
          order := some order
          told := sight.told ++ [⟨id, occurrence⟩] }
  | submitted
      (command : SubmitOrder)
      (order : Order)
      (hNew : sight.order = none)
      (hApply :
        (Order.new command).apply ⟨id, .submitted⟩ = .ok order) :
      SightMove id sight
        { sight with
          order := some order
          submitted := sight.submitted ++ [command]
          told := sight.told ++ [⟨id, .submitted⟩] }
  | taken
      (event : OrderEvent)
      (rest : List OrderEvent)
      (order next : Order)
      (hReported : sight.reported = event :: rest)
      (hOrder : sight.order = some order)
      (hApply : order.apply event = .ok next) :
      SightMove id sight
        { sight with
          order := some next
          reported := rest
          told := sight.told ++ [event] }
  | missed
      (event : OrderEvent)
      (rest : List OrderEvent)
      (hReported : sight.reported = event :: rest)
      (hMissed :
        ∀ order,
          sight.order = some order →
            (∃ e, order.apply event = .error e) ∧
              ∀ fill,
                event.occurrence.fill? = some fill →
                  order.fillTotals? fill ≠ none) :
      SightMove id sight { sight with reported := rest }
  | accepted
      (command : SubmitOrder)
      (rest : List SubmitOrder)
      (venueOrderId : String)
      (price : Decimal)
      (hSubmitted : sight.submitted = command :: rest) :
      SightMove id sight
        { sight with
          submitted := rest
          reported :=
            sight.reported ++ [⟨id, .accepted venueOrderId⟩]
          isResting := true
          pending :=
            sight.pending ++ [⟨id, ⟨command.quantity, price⟩⟩] }
  | cancelled
      (hResting : sight.isResting = true) :
      SightMove id sight
        { sight with
          reported := sight.reported ++ [⟨id, .cancelled⟩]
          isResting := false }
  | lapsed
      (fill : PendingFill)
      (hPending : fill ∈ sight.pending)
      (hGone : sight.isResting = false) :
      SightMove id sight
        { sight with pending := sight.pending.erase fill }
  | executed
      (fill : PendingFill)
      (hPending : fill ∈ sight.pending)
      (hResting : sight.isResting = true) :
      SightMove id sight
        { sight with
          isResting := false
          pending := sight.pending.erase fill
          executed := fill :: sight.executed }
  | filled
      (fill : PendingFill)
      (hExecuted : fill ∈ sight.executed) :
      SightMove id sight
        { sight with
          reported := sight.reported ++ [⟨id, .filled fill.fill⟩]
          executed := sight.executed.erase fill }

namespace Floor

variable {floor : Floor} {id : OrderId}

------------------------------------------------------------
-- Moves Of The Window
------------------------------------------------------------

/- Commands of the engine change the window and the outbox only. -/
theorem foldl_command_eq
    (commands : List (Envelope TradingMessage))
    (floor : Floor) :
    ∃ window outbox,
      commands.foldl command floor =
        { floor with window := window, outbox := outbox } := by
  induction commands generalizing floor with
  | nil => exact ⟨floor.window, floor.outbox, rfl⟩
  | cons envelope commands ih =>
      rcases ih (floor.command envelope) with
        ⟨window, outbox, hRest⟩
      refine ⟨window, outbox, ?_⟩
      rw [List.foldl_cons, hRest]
      unfold command
      split <;> rfl

/- The window changes itself and the outbox only. -/
theorem turnWindow_eq
    (floor : Floor)
    (turn :
      Window (Envelope TradingMessage) →
        List (Envelope TradingMessage) ×
          Window (Envelope TradingMessage)) :
    ∃ window outbox,
      floor.turnWindow turn =
        { floor with window := window, outbox := outbox } := by
  unfold turnWindow
  split
  · exact ⟨floor.window, floor.outbox, rfl⟩
  · exact ⟨_, _, rfl⟩

/- Commands come after all that are on their way. -/
theorem outbox_waiting_foldl_command
    (commands : List (Envelope TradingMessage))
    (floor : Floor) :
    (commands.foldl command floor).outbox ++
        (commands.foldl command floor).waiting =
      floor.outbox ++ floor.waiting ++ commands := by
  induction commands generalizing floor with
  | nil => simp
  | cons envelope commands ih =>
      have hCommand :
          (floor.command envelope).outbox ++
              (floor.command envelope).waiting =
            floor.outbox ++ floor.waiting ++ [envelope] := by
        unfold command
        cases hWindow : floor.window with
        | none => simp [waiting, hWindow]
        | some window =>
            have hFifo := window.send_fst_append_buffer envelope
            simp only [waiting, hWindow, List.append_assoc, hFifo]
      rw [List.foldl_cons, ih, hCommand, List.append_assoc,
        List.singleton_append]

theorem outbox_waiting_turnWindow
    {turn :
      Window (Envelope TradingMessage) →
        List (Envelope TradingMessage) ×
          Window (Envelope TradingMessage)}
    (floor : Floor)
    (hFifo :
      ∀ window,
        (turn window).1 ++ (turn window).2.buffer =
          window.buffer) :
    (floor.turnWindow turn).outbox ++
        (floor.turnWindow turn).waiting =
      floor.outbox ++ floor.waiting := by
  unfold turnWindow
  cases hWindow : floor.window with
  | none => rfl
  | some window =>
      simp only [waiting, hWindow, List.append_assoc, hFifo]

theorem sight_foldl_command
    (commands : List (Envelope TradingMessage))
    (floor : Floor)
    (id : OrderId) :
    (commands.foldl command floor).sight id =
      { floor.sight id with
        submitted :=
          (floor.sight id).submitted ++
            submissionsOf id commands } := by
  have hOutbox := outbox_waiting_foldl_command commands floor
  rcases foldl_command_eq commands floor with
    ⟨window, outbox, hCommands⟩
  rw [hCommands] at hOutbox ⊢
  simp only [sight, hOutbox, submissionsOf_append]

theorem sight_turnWindow
    {turn :
      Window (Envelope TradingMessage) →
        List (Envelope TradingMessage) ×
          Window (Envelope TradingMessage)}
    (floor : Floor)
    (id : OrderId)
    (hFifo :
      ∀ window,
        (turn window).1 ++ (turn window).2.buffer =
          window.buffer) :
    (floor.turnWindow turn).sight id = floor.sight id := by
  have hOutbox := outbox_waiting_turnWindow floor hFifo
  rcases turnWindow_eq floor turn with ⟨window, outbox, hTurn⟩
  rw [hTurn] at hOutbox ⊢
  simp only [sight, hOutbox]

------------------------------------------------------------
-- Moves Of The Engine
------------------------------------------------------------

theorem sight_followEngine
    (floor : Floor)
    (step : EngineStep)
    (id : OrderId) :
    (floor.followEngine step).sight id =
      { floor.sight id with
        order := step.engine.blotter.find? id
        submitted :=
          (floor.sight id).submitted ++
            submissionsOf id step.commands
        told :=
          (floor.sight id).told ++ eventsAbout id step.events } := by
  unfold followEngine
  rw [sight_foldl_command]
  simp [sight, waiting]

/- What the engine takes from its inbox was reported first. -/
theorem reported_of_inbox
    {envelope : Envelope TradingMessage}
    {rest : List (Envelope TradingMessage)}
    (id : OrderId)
    (hInbox : floor.inbox = envelope :: rest) :
    (floor.sight id).reported =
      (eventAbout? id envelope).toList ++
        eventsAbout id (rest ++ floor.reports) := by
  simp only [sight, hInbox, List.cons_append, eventsAbout_cons]

/- A message that asks for an order reports nothing about it. -/
theorem eventAbout?_of_submissionOf?
    {envelope : Envelope TradingMessage}
    {command : SubmitOrder}
    (hCommand : submissionOf? id envelope = some command) :
    eventAbout? id envelope = none := by
  apply eventAbout?_eq_none
  intro event hPayload
  simp [submissionOf?, hPayload] at hCommand

/-
  A fill that the engine is about to take is accountable,
  seen from the order that it is about.
-/
theorem accountable_of_eventAbout?
    {stamp : Stamp}
    {envelope : Envelope TradingMessage}
    {rest : List (Envelope TradingMessage)}
    {event : OrderEvent}
    {order : Order}
    (hAccountable : floor.Accountable (.serve stamp))
    (hInbox : floor.inbox = envelope :: rest)
    (hEvent : eventAbout? id envelope = some event)
    (hOrder : floor.engine.blotter.find? id = some order) :
    ∀ fill,
      event.occurrence.fill? = some fill →
        order.fillTotals? fill ≠ none := by
  intro fill hFill
  rcases orderEvent?_of_eventAbout? id hEvent with
    ⟨hEvent, hId⟩
  have hServed : floor.served? (.serve stamp) = some envelope := by
    unfold served?
    rw [hInbox]
    rfl
  rw [← hId] at hOrder
  exact hAccountable envelope hServed event hEvent fill hFill order hOrder

theorem sightMove_serve
    (stamp : Stamp)
    (id : OrderId)
    (hAccountable : floor.Accountable (.serve stamp)) :
    SightMove id (floor.sight id)
      ((floor.serve stamp).sight id) := by
  unfold serve
  cases hInbox : floor.inbox with
  | nil => exact .idle
  | cons envelope rest =>
      rcases Engine.exists_reaction stamp floor.engine envelope
        with ⟨step, hHandle, hReaction⟩
      have hReported := reported_of_inbox id hInbox
      have hRest :
          { floor with inbox := rest }.sight id =
            { floor.sight id with
              reported :=
                eventsAbout id (rest ++ floor.reports) } :=
        rfl
      simp only [hHandle]
      rw [sight_followEngine, hRest]
      cases hReaction.orderChange id with
      | kept hFound hEvents hCommands _ hRefused =>
          rw [hFound, hEvents, hCommands, List.append_nil,
            List.append_nil]
          cases hEvent : eventAbout? id envelope with
          | none =>
              have hSame :
                  (floor.sight id).reported =
                    eventsAbout id (rest ++ floor.reports) := by
                rw [hReported, hEvent]
                rfl
              rw [← hSame]
              exact .idle
          | some event =>
              rw [hEvent] at hReported
              refine .missed event _ hReported ?_
              intro order hOrder
              exact
                ⟨hRefused event order hEvent hOrder,
                  accountable_of_eventAbout? hAccountable
                    hInbox hEvent hOrder⟩
      | opened command occurrence order hCommand hId hNew hApply
          hFound hEvents hAdmission =>
          have hSame :
              (floor.sight id).reported =
                eventsAbout id (rest ++ floor.reports) := by
            rw [hReported, eventAbout?_of_submissionOf? hCommand]
            rfl
          rw [← hSame, hFound, hEvents]
          rcases hAdmission with
            ⟨rfl, _, hSent⟩ | ⟨reason, hRefused, hKept⟩
          · rw [hSent]
            exact .submitted command order hNew hApply
          · rw [hKept, List.append_nil]
            exact
              .refused command occurrence order reason hNew
                hRefused hApply
      | advanced event order next hEvent hOrder hApply hFound
          hEvents hCommands =>
          rw [hEvent] at hReported
          rw [hFound, hEvents, hCommands, List.append_nil]
          exact .taken event _ order next hReported hOrder hApply

------------------------------------------------------------
-- Moves Of The Venue
------------------------------------------------------------

theorem sight_followVenue
    (floor : Floor)
    (step : VenueStep)
    (id : OrderId) :
    (floor.followVenue step).sight id =
      { floor.sight id with
        reported :=
          (floor.sight id).reported ++ eventsAbout id step.reports
        isResting := step.venue.isResting id
        pending :=
          (floor.sight id).pending ++
            step.pending.toList.filter
              fun fill => fill.orderId = id } := by
  simp [followVenue, sight, waiting]

/- What the venue takes from its outbox was submitted first. -/
theorem submitted_of_outbox
    {envelope : Envelope TradingMessage}
    {rest : List (Envelope TradingMessage)}
    (id : OrderId)
    (hOutbox : floor.outbox = envelope :: rest) :
    (floor.sight id).submitted =
      (submissionOf? id envelope).toList ++
        submissionsOf id (rest ++ floor.waiting) := by
  simp only [sight, hOutbox, List.cons_append, submissionsOf_cons]

theorem sight_followVenue_of_outbox
    (floor : Floor)
    (rest : List (Envelope TradingMessage))
    (step : VenueStep)
    (id : OrderId) :
    ({ floor with outbox := rest }.followVenue step).sight id =
      { floor.sight id with
        submitted := submissionsOf id (rest ++ floor.waiting)
        reported :=
          (floor.sight id).reported ++ eventsAbout id step.reports
        isResting := step.venue.isResting id
        pending :=
          (floor.sight id).pending ++
            step.pending.toList.filter
              fun fill => fill.orderId = id } := by
  rw [sight_followVenue]
  rfl

theorem sightMove_deliver
    (stamp : Stamp)
    (id : OrderId)
    (hConnected : floor.venue.connected = true) :
    SightMove id (floor.sight id)
      ((floor.deliver stamp).sight id) := by
  unfold deliver
  cases hOutbox : floor.outbox with
  | nil => exact .idle
  | cons envelope rest =>
      have hSubmitted := submitted_of_outbox id hOutbox
      have hReaction :=
        PaperVenue.reaction_handle stamp envelope hConnected
      dsimp only
      rw [sight_followVenue_of_outbox]
      cases hReaction.orderChange id with
      | kept hSubmission _ hEvents hResting hPending =>
          rw [hSubmission] at hSubmitted
          have hSame :
              (floor.sight id).submitted =
                submissionsOf id (rest ++ floor.waiting) :=
            hSubmitted
          rw [← hSame, hEvents, hResting, hPending,
            List.append_nil, List.append_nil]
          exact .idle
      | accepted command hSubmission hEvents hResting hPending =>
          rw [hSubmission] at hSubmitted
          rw [hEvents, hResting, hPending]
          exact .accepted command _ _ _ hSubmitted
      | cancelled hSubmission _ hResting hEvents hGone hPending =>
          rw [hSubmission] at hSubmitted
          have hSame :
              (floor.sight id).submitted =
                submissionsOf id (rest ++ floor.waiting) :=
            hSubmitted
          rw [← hSame, hEvents, hGone, hPending, List.append_nil]
          exact .cancelled hResting

------------------------------------------------------------
-- Moves Of The Timers
------------------------------------------------------------

/- Taking away a fill of another order takes nothing away. -/
theorem filter_erase_of_ne
    {fill : PendingFill}
    (fills : List PendingFill)
    (hId : fill.orderId ≠ id) :
    (fills.erase fill).filter (fun other => other.orderId = id) =
      fills.filter fun other => other.orderId = id := by
  rw [← List.erase_filter]
  apply List.erase_of_not_mem
  simp [hId]

theorem sightMove_execute
    (fill : PendingFill)
    (id : OrderId) :
    SightMove id (floor.sight id)
      ((floor.execute fill).sight id) := by
  unfold execute
  by_cases hPending : fill ∈ floor.pending
  · rw [if_pos hPending]
    by_cases hResting : floor.venue.isResting fill.orderId
    · rw [if_pos hResting]
      have hUnrest :=
        floor.venue.isResting_unrest fill.orderId id
      by_cases hId : fill.orderId = id
      · subst hId
        rw [decide_eq_true rfl, Bool.not_true,
          Bool.false_and] at hUnrest
        have hOwn : fill ∈ (floor.sight fill.orderId).pending := by
          simp [sight, hPending]
        have hMove :=
          @SightMove.executed fill.orderId _ fill hOwn
            hResting
        simpa [sight, waiting, hUnrest, List.erase_filter]
          using hMove
      · rw [decide_eq_false (Ne.symm hId), Bool.not_false,
          Bool.true_and] at hUnrest
        have hSame :
            ({ floor with
                venue := floor.venue.unrest fill.orderId
                pending := floor.pending.erase fill
                executed := fill :: floor.executed } : Floor).sight
                id =
              floor.sight id := by
          simp [sight, waiting, hUnrest, hId,
            filter_erase_of_ne floor.pending hId]
        rw [hSame]
        exact .idle
    · rw [if_neg hResting]
      by_cases hId : fill.orderId = id
      · rw [hId] at hResting
        have hOwn : fill ∈ (floor.sight id).pending := by
          simp [sight, hPending, hId]
        have hMove :=
          @SightMove.lapsed id _ fill hOwn
            (Bool.eq_false_iff.mpr hResting)
        simpa [sight, waiting, List.erase_filter] using hMove
      · have hSame :
            ({ floor with
                pending := floor.pending.erase fill } : Floor).sight
                id =
              floor.sight id := by
          simp [sight, waiting,
            filter_erase_of_ne floor.pending hId]
        rw [hSame]
        exact .idle
  · rw [if_neg hPending]
    exact .idle

theorem sightMove_report
    (stamp : Stamp)
    (fill : PendingFill)
    (id : OrderId) :
    SightMove id (floor.sight id)
      ((floor.report stamp fill).sight id) := by
  unfold report
  by_cases hExecuted : fill ∈ floor.executed
  · rw [if_pos hExecuted]
    by_cases hId : fill.orderId = id
    · have hOwn : fill ∈ (floor.sight id).executed := by
        simp [sight, hExecuted, hId]
      have hMove := @SightMove.filled id _ fill hOwn
      simpa [sight, waiting, eventsAbout, eventAbout?,
        Envelope.event, Envelope.make, hId, List.erase_filter]
        using hMove
    · have hSame :
          ({ floor with
              executed := floor.executed.erase fill
              reports :=
                floor.reports ++
                  [Envelope.event stamp
                    (.orderEvent
                      ⟨fill.orderId,
                        .filled fill.fill⟩)] } : Floor).sight id =
            floor.sight id := by
        simp [sight, waiting, eventsAbout, eventAbout?,
          Envelope.event, Envelope.make, hId,
          filter_erase_of_ne floor.executed hId]
      rw [hSame]
      exact .idle
  · rw [if_neg hExecuted]
    exact .idle

------------------------------------------------------------
-- Every Move
------------------------------------------------------------

theorem sight_enqueue
    {envelope : Envelope TradingMessage}
    (floor : Floor)
    (hPayload : ∀ event, envelope.payload ≠ .orderEvent event) :
    (floor.enqueue envelope).sight id = floor.sight id := by
  have hNone := eventAbout?_eq_none id hPayload
  simp [enqueue, sight, waiting, eventsAbout, hNone]

theorem sight_arrive
    (floor : Floor)
    (id : OrderId) :
    floor.arrive.sight id = floor.sight id := by
  unfold arrive
  cases hReports : floor.reports with
  | nil => rfl
  | cons envelope rest =>
      simp [enqueue, sight, waiting, hReports]

/- Every move is one of those that can be seen of an order. -/
theorem sightMove
    (move : Move)
    (id : OrderId)
    (hConnected : floor.venue.connected = true)
    (hAccountable : floor.Accountable move) :
    SightMove id (floor.sight id)
      ((floor.move move).sight id) := by
  cases move with
  | submit header command =>
      rw [Floor.move, sight_enqueue]
      · exact .idle
      · simp
  | cancel header cancel =>
      rw [Floor.move, sight_enqueue]
      · exact .idle
      · simp
  | arrive =>
      rw [Floor.move, sight_arrive]
      exact .idle
  | serve stamp => exact sightMove_serve stamp id hAccountable
  | deliver stamp => exact sightMove_deliver stamp id hConnected
  | execute fill => exact sightMove_execute fill id
  | report stamp fill => exact sightMove_report stamp fill id
  | start =>
      rw [Floor.move,
        sight_turnWindow floor id Window.start_fst_append_buffer]
      exact .idle
  | stop =>
      rw [Floor.move, sight_turnWindow floor id fun _ => rfl]
      exact .idle
  | roll =>
      rw [Floor.move,
        sight_turnWindow floor id Window.roll_fst_append_buffer]
      exact .idle
  | pause reason => exact .idle
  | resume => exact .idle

end Floor

end OrderDesk
