import OrderDesk.Proofs.Timer.Firing
import OrderDesk.Proofs.Venue.Reaction
import OrderDesk.Venue.Session

/-
  This file defines what can happen to a paper venue in time
  and says once what each thing that happens changes about
  one order.

  Time passes from deadline to deadline. Timers fire at
  their deadline, before or after all else that happens at
  that time.

  Key definitions include:
    * `Moment`
    * `VenueSession.live`
    * `VenueSession.takings`
    * `OrderView`
    * `OrderView.fire`
    * `ViewMove`

  Key theorems include:
    * `VenueSession.view_settleAll`
    * `VenueSession.viewMove`
    * `VenueSession.Runs.happen`
-/

namespace OrderDesk

------------------------------------------------------------
-- Venues In Time
------------------------------------------------------------

/-
  What can happen to a venue in time. Its timers may fire
  only if they are due, and have to before time goes on.
-/
inductive Moment where
  | message (envelope : Envelope TradingMessage)
  | wait (ms : Nat)
  | fire

/- The message that is taken at a moment, and when. -/
def Moment.taking?
    (now : Nat) :
    Moment → Option (Nat × Envelope TradingMessage)
| .message envelope => some (now, envelope)
| .wait _ => none
| .fire => none

/- What is taken at a moment is taken then. -/
theorem Moment.time_of_taking
    {now : Nat}
    {moment : Moment}
    {taking : Nat × Envelope TradingMessage}
    (hTaking : taking ∈ (moment.taking? now).toList) :
    taking.1 = now := by
  cases moment with
  | message envelope =>
      cases List.mem_singleton.mp hTaking
      rfl
  | wait ms => cases hTaking
  | fire => cases hTaking

namespace VenueSession

/- Let time pass, but not beyond a deadline. -/
def wait
    (ms : Nat)
    (session : VenueSession) : VenueSession :=
  if ∀ deadline ∈ session.timers.deadline?,
      session.now + ms ≤ deadline then
    { session with now := session.now + ms }
  else
    session

/- Let something happen. -/
def happen
    (session : VenueSession) :
    Moment → VenueSession
| .message envelope => session.deliver envelope
| .wait ms => session.wait ms
| .fire => session.wake session.now

/- Let one thing happen after the other. -/
def live
    (session : VenueSession)
    (moments : List Moment) : VenueSession :=
  moments.foldl happen session

/- The messages that the venue takes, one after the other. -/
def takings :
    VenueSession → List Moment →
      List (Nat × Envelope TradingMessage)
| _, [] => []
| session, moment :: rest =>
    (moment.taking? session.now).toList ++
      (session.happen moment).takings rest

theorem live_append
    (session : VenueSession)
    (first second : List Moment) :
    session.live (first ++ second) =
      (session.live first).live second :=
  List.foldl_append

/-
  What every moment preserves holds after all of them. The
  property may speak of the messages that were taken so far.
-/
theorem live_induction
    (P :
      List (Nat × Envelope TradingMessage) → VenueSession → Prop)
    (hHappen :
      ∀ taken session moment,
        P taken session →
          P (taken ++ (moment.taking? session.now).toList)
            (session.happen moment))
    {taken : List (Nat × Envelope TradingMessage)}
    {session : VenueSession}
    (hStart : P taken session)
    (moments : List Moment) :
    P (taken ++ session.takings moments)
      (session.live moments) := by
  induction moments generalizing taken session with
  | nil =>
      rw [takings, List.append_nil]
      exact hStart
  | cons moment moments ih =>
      have hRest := ih (hHappen taken session moment hStart)
      rw [List.append_assoc] at hRest
      exact hRest

end VenueSession

------------------------------------------------------------
-- One Order
------------------------------------------------------------

/-
  What there is to see of one order at a venue: what time it
  is, whether the order rests, which of its fills are set
  for when, and what was reported of it and when.
-/
structure OrderView where
  now : Nat
  isResting : Bool
  timers : List (Nat × Fill)
  told : List (Nat × OrderEvent)

namespace OrderView

/- The fills of the order that were reported, and when. -/
def fills
    (view : OrderView) : List (Nat × Fill) :=
  view.told.filterMap fun report =>
    report.2.occurrence.fill?.map fun fill => (report.1, fill)

/-
  Timers of the order fire. If it rests, the first of them
  fills it.
-/
def fire
    (id : OrderId)
    (view : OrderView)
    (due : List (Nat × Fill)) : OrderView :=
  { view with
    isResting := view.isResting && due.isEmpty
    timers :=
      view.timers.filter fun timer => !(timer.1 ≤ view.now)
    told :=
      view.told ++
        if view.isResting then
          (due.head?.map fun timer =>
            (view.now, ⟨id, .filled timer.2⟩)).toList
        else
          [] }

end OrderView

namespace VenueSession

/- The timers that are set for an order. -/
def timersOf
    (id : OrderId)
    (timers : List (Timer PendingFill)) : List (Nat × Fill) :=
  (timers.filter fun timer => timer.payload.orderId = id).map
    fun timer => (timer.deadline, timer.payload.fill)

/- The events about an order that were reported, and when. -/
def toldOf
    (id : OrderId)
    (reports : List (Nat × Envelope TradingMessage)) :
    List (Nat × OrderEvent) :=
  reports.filterMap fun report =>
    (eventAbout? id report.2).map fun event => (report.1, event)

/- What there is to see of the order under `id`. -/
def view
    (id : OrderId)
    (session : VenueSession) : OrderView where
  now := session.now
  isResting := session.venue.isResting id
  timers := timersOf id session.timers.pending
  told := toldOf id session.reports

end VenueSession

/-
  What one moment can change about an order. The venue
  accepts or cancels it; time passes, but not beyond a timer
  of the order; the timers that are due fire, and the first
  of them fills the order if it rests.
-/
inductive ViewMove
    (settings : PaperSettings)
    (id : OrderId)
    (view : OrderView) :
    Moment → OrderView → Prop where
  | kept
      (envelope : Envelope TradingMessage)
      (hSubmission : submissionOf? id envelope = none)
      (hCancel :
        isCancelOf id envelope = true → view.isResting = false) :
      ViewMove settings id view (.message envelope) view
  | accepted
      (envelope : Envelope TradingMessage)
      (command : SubmitOrder)
      (venueOrderId : String)
      (hSubmission : submissionOf? id envelope = some command) :
      ViewMove settings id view (.message envelope)
        { view with
          isResting := true
          timers :=
            view.timers ++
              [(view.now + settings.fillLatencyMs,
                ⟨command.quantity,
                  command.price.getD settings.referencePrice⟩)]
          told :=
            view.told ++
              [(view.now, ⟨id, .accepted venueOrderId⟩)] }
  | cancelled
      (envelope : Envelope TradingMessage)
      (hSubmission : submissionOf? id envelope = none)
      (hCancel : isCancelOf id envelope = true)
      (hResting : view.isResting = true) :
      ViewMove settings id view (.message envelope)
        { view with
          isResting := false
          told := view.told ++ [(view.now, ⟨id, .cancelled⟩)] }
  | stayed
      (ms : Nat) :
      ViewMove settings id view (.wait ms) view
  | waited
      (ms : Nat)
      (hAhead : ∀ timer ∈ view.timers, view.now + ms ≤ timer.1) :
      ViewMove settings id view (.wait ms)
        { view with now := view.now + ms }
  | fired
      (due : List (Nat × Fill))
      (hDue :
        due.Perm
          (view.timers.filter fun timer => timer.1 ≤ view.now)) :
      ViewMove settings id view .fire (view.fire id due)

namespace VenueSession

variable {settings : PaperSettings}
variable {session : VenueSession}

------------------------------------------------------------
-- Sessions That Run
------------------------------------------------------------

/-
  A session in which somebody receives the reports of the
  venue, and in which every fill happens once.
-/
structure Runs
    (settings : PaperSettings)
    (session : VenueSession) : Prop where
  connected : session.venue.connected = true
  settings : session.venue.settings = settings
  once :
    ∀ timer ∈ session.timers.pending, timer.interval = none

theorem runs_new
    (settings : PaperSettings)
    (stamps : Stamps) :
    (new (PaperVenue.new settings true) stamps).Runs settings where
  connected := rfl
  settings := rfl
  once := by
    intro timer hTimer
    cases hTimer

theorem Runs.follow
    {step : VenueStep}
    (hRuns : session.Runs settings)
    (hConnected :
      step.venue.connected = session.venue.connected)
    (hSettings : step.venue.settings = session.venue.settings) :
    (session.follow step).Runs settings where
  connected := hConnected.trans hRuns.connected
  settings := hSettings.trans hRuns.settings
  once := by
    intro timer hTimer
    unfold VenueSession.follow at hTimer
    cases hPending : step.pending with
    | none =>
        rw [hPending] at hTimer
        exact hRuns.once timer hTimer
    | some pending =>
        rw [hPending] at hTimer
        rcases List.mem_append.mp hTimer with hMem | hMem
        · exact hRuns.once timer hMem
        · cases List.mem_singleton.mp hMem
          rfl

/- What a step of the venue changes about an order. -/
theorem view_follow
    (session : VenueSession)
    (step : VenueStep)
    (id : OrderId) :
    (session.follow step).view id =
      { now := session.now
        isResting := step.venue.isResting id
        timers :=
          (session.view id).timers ++
            (step.pending.toList.filter
              fun pending => pending.orderId = id).map
                fun pending =>
                  (session.now +
                      step.venue.settings.fillLatencyMs,
                    pending.fill)
        told :=
          (session.view id).told ++
            (eventsAbout id step.reports).map
              fun event => (session.now, event) } := by
  have hTold :
      toldOf id
          (step.reports.map
            fun envelope => (session.now, envelope)) =
        (eventsAbout id step.reports).map
          fun event => (session.now, event) := by
    unfold toldOf eventsAbout
    rw [List.filterMap_map, List.map_filterMap]
    rfl
  have hAppend :
      toldOf id
          (session.reports ++
            step.reports.map
              fun envelope => (session.now, envelope)) =
        toldOf id session.reports ++
          toldOf id
            (step.reports.map
              fun envelope => (session.now, envelope)) :=
    List.filterMap_append
  unfold follow view
  rw [hAppend, hTold]
  cases hPending : step.pending with
  | none => simp
  | some pending =>
      by_cases hId : pending.orderId = id
      · simp [Timers.once, timersOf, hId]
      · simp [Timers.once, timersOf, hId]

------------------------------------------------------------
-- Messages
------------------------------------------------------------

/- A message that the venue has no use for is put aside only. -/
theorem view_deliver
    (session : VenueSession)
    (envelope : Envelope TradingMessage)
    (id : OrderId) :
    (session.deliver envelope).view id =
      ({ session with
        stamps :=
          (session.stamps.next session.now).2 }.follow
        (session.venue.handle
          (session.stamps.next session.now).1 envelope)).view
        id := by
  unfold deliver
  dsimp only
  split <;> rfl

theorem Runs.deliver
    (hRuns : session.Runs settings)
    (envelope : Envelope TradingMessage) :
    (session.deliver envelope).Runs settings := by
  have hReaction :=
    PaperVenue.reaction_handle
      (session.stamps.next session.now).1 envelope hRuns.connected
  have hNext :
      ({ session with
        stamps :=
          (session.stamps.next session.now).2 }.follow
        (session.venue.handle
          (session.stamps.next session.now).1 envelope)).Runs
        settings :=
    Runs.follow { hRuns with connected := hRuns.connected }
      hReaction.connected hReaction.settings
  unfold VenueSession.deliver
  dsimp only
  split
  · exact hNext
  · exact { hNext with connected := hNext.connected }

theorem viewMove_deliver
    (hRuns : session.Runs settings)
    (envelope : Envelope TradingMessage)
    (id : OrderId) :
    ViewMove settings id (session.view id) (.message envelope)
      ((session.deliver envelope).view id) := by
  have hReaction :=
    PaperVenue.reaction_handle
      (session.stamps.next session.now).1 envelope hRuns.connected
  have hSettings := hReaction.settings.trans hRuns.settings
  rw [view_deliver, view_follow, hSettings]
  cases hReaction.orderChange id with
  | kept hSubmission hCancel hEvents hResting hPending =>
      rw [hEvents, hResting, hPending, List.map_nil, List.map_nil,
        List.append_nil, List.append_nil]
      exact .kept envelope hSubmission hCancel
  | accepted command hSubmission hEvents hResting hPending =>
      rw [hEvents, hResting, hPending]
      unfold PaperVenue.fillOf
      rw [hRuns.settings]
      exact .accepted envelope command _ hSubmission
  | cancelled hSubmission hCancel hResting hEvents hGone
      hPending =>
      rw [hEvents, hGone, hPending, List.map_nil,
        List.append_nil]
      exact .cancelled envelope hSubmission hCancel hResting

------------------------------------------------------------
-- Timers
------------------------------------------------------------

theorem Runs.settle
    (hRuns : session.Runs settings)
    (pending : PendingFill) :
    (session.settle pending).Runs settings := by
  unfold VenueSession.settle PaperVenue.settle
  dsimp only
  split
  · exact
      Runs.follow { hRuns with connected := hRuns.connected }
        rfl rfl
  · exact
      Runs.follow { hRuns with connected := hRuns.connected }
        rfl rfl

/- A fill whose time has come is reported if its order rests. -/
theorem view_settle
    (hRuns : session.Runs settings)
    (pending : PendingFill)
    (id : OrderId) :
    (session.settle pending).view id =
      if pending.orderId = id ∧ (session.view id).isResting then
        { session.view id with
          isResting := false
          told :=
            (session.view id).told ++
              [(session.now, ⟨id, .filled pending.fill⟩)] }
      else
        session.view id := by
  unfold VenueSession.settle PaperVenue.settle
  dsimp only
  rw [view_follow]
  by_cases hResting : session.venue.isResting pending.orderId
  · rw [if_pos hResting, if_pos hRuns.connected]
    by_cases hId : pending.orderId = id
    · rw [hId] at hResting
      rw [if_pos ⟨hId, hResting⟩]
      simp [view, PaperVenue.isResting_unrest, eventsAbout,
        eventAbout?, Envelope.event, Envelope.make, hId]
    · rw [if_neg fun hBoth => hId hBoth.1]
      simp [view, PaperVenue.isResting_unrest, eventsAbout,
        eventAbout?, Envelope.event, Envelope.make, hId,
        Ne.symm hId]
  · have hNot :
        ¬ (pending.orderId = id ∧
          (session.view id).isResting) := by
      rintro ⟨rfl, hRests⟩
      exact hResting hRests
    rw [if_neg hResting, if_neg hNot]
    simp [view]

/-
  Of several fills of an order whose time has come the first
  is reported, if the order rests.
-/
theorem view_settleAll
    (hRuns : session.Runs settings)
    (fills : List PendingFill)
    (id : OrderId) :
    (fills.foldl VenueSession.settle session).view id =
      { session.view id with
        isResting :=
          (session.view id).isResting &&
            (fills.filter fun fill => fill.orderId = id).isEmpty
        told :=
          (session.view id).told ++
            if (session.view id).isResting then
              ((fills.filter
                fun fill => fill.orderId = id).head?.map
                  fun fill =>
                    ((session.view id).now,
                      ⟨id, .filled fill.fill⟩)).toList
            else
              [] } := by
  induction fills generalizing session with
  | nil => simp
  | cons fill fills ih =>
      rw [List.foldl_cons, ih (hRuns.settle fill),
        view_settle hRuns]
      by_cases hId : fill.orderId = id
      · by_cases hResting : (session.view id).isResting = true
        · rw [if_pos ⟨hId, hResting⟩]
          simp [hId, hResting]
          rfl
        · rw [if_neg fun hBoth => hResting hBoth.2]
          simp [hId, hResting]
      · rw [if_neg fun hBoth => hId hBoth.1]
        simp [hId]

/- A session runs on after fills whose time has come. -/
theorem Runs.settleAll
    (hRuns : session.Runs settings)
    (fills : List PendingFill) :
    (fills.foldl VenueSession.settle session).Runs settings := by
  induction fills generalizing session with
  | nil => exact hRuns
  | cons fill fills ih => exact ih (hRuns.settle fill)

theorem Runs.wake
    (hRuns : session.Runs settings)
    (now : Nat) :
    (session.wake now).Runs settings := by
  unfold VenueSession.wake
  rw [fire_of_once now hRuns.once]
  apply Runs.settleAll
  exact
    { hRuns with
      connected := hRuns.connected
      once := fun timer hTimer =>
        hRuns.once timer (List.mem_filter.mp hTimer).1 }

/- Timers of an order are picked by their deadlines. -/
theorem timersOf_filter
    (id : OrderId)
    (timers : List (Timer PendingFill))
    (picks : Nat → Bool) :
    timersOf id (timers.filter fun timer => picks timer.deadline) =
      (timersOf id timers).filter fun timer => picks timer.1 := by
  unfold timersOf
  rw [List.filter_map, List.filter_filter, List.filter_filter]
  simp [Bool.and_comm]

theorem viewMove_wake
    (hRuns : session.Runs settings)
    (id : OrderId) :
    ViewMove settings id (session.view id) .fire
      ((session.wake session.now).view id) := by
  have hRest :
      { session with
        timers :=
          { session.timers with
            pending :=
              session.timers.pending.filter fun timer =>
                !timer.isDue session.now } }.Runs settings :=
    { hRuns with
      connected := hRuns.connected
      once := fun timer hTimer =>
        hRuns.once timer (List.mem_filter.mp hTimer).1 }
  have hDue :
      (timersOf id (session.timers.due session.now)).Perm
        ((session.view id).timers.filter
          fun timer => timer.1 ≤ (session.view id).now) := by
    have hPerm := due_perm session.now session.timers
    unfold view
    rw [← timersOf_filter id _ fun deadline =>
      deadline ≤ session.now]
    exact (hPerm.filter _).map _
  have hLater :
      timersOf id
          (session.timers.pending.filter fun timer =>
            !timer.isDue session.now) =
        (session.view id).timers.filter
          fun timer => !(timer.1 ≤ (session.view id).now) :=
    timersOf_filter id _ fun deadline =>
      !(deadline ≤ session.now)
  have hMove :
      ViewMove settings id (session.view id) .fire _ :=
    .fired _ hDue
  unfold OrderView.fire at hMove
  rw [← hLater] at hMove
  unfold VenueSession.wake
  rw [fire_of_once session.now hRuns.once]
  dsimp only
  rw [view_settleAll hRest]
  simpa [view, timersOf, List.filter_map, Function.comp_def]
    using hMove

------------------------------------------------------------
-- Every Moment
------------------------------------------------------------

/- Time passes, but not beyond a timer of the order. -/
theorem viewMove_wait
    (session : VenueSession)
    (ms : Nat)
    (id : OrderId) :
    ViewMove settings id (session.view id) (.wait ms)
      ((session.wait ms).view id) := by
  unfold VenueSession.wait
  split
  · rename_i hWithin
    refine .waited ms ?_
    intro timer hTimer
    rcases List.mem_map.mp hTimer with ⟨set, hSet, rfl⟩
    rcases exists_deadline?_le (List.mem_filter.mp hSet).1 with
      ⟨deadline, hDeadline, hLe⟩
    exact Nat.le_trans (hWithin deadline hDeadline) hLe
  · exact .stayed ms

/- Whatever happens to an order is one of the moves. -/
theorem viewMove
    (hRuns : session.Runs settings)
    (moment : Moment)
    (id : OrderId) :
    ViewMove settings id (session.view id) moment
      ((session.happen moment).view id) := by
  cases moment with
  | message envelope => exact viewMove_deliver hRuns envelope id
  | wait ms => exact viewMove_wait session ms id
  | fire => exact viewMove_wake hRuns id

/- A session runs on, whatever happens. -/
theorem Runs.happen
    (hRuns : session.Runs settings)
    (moment : Moment) :
    (session.happen moment).Runs settings := by
  cases moment with
  | message envelope => exact hRuns.deliver envelope
  | wait ms =>
      unfold VenueSession.happen VenueSession.wait
      dsimp only
      split
      · exact { hRuns with connected := hRuns.connected }
      · exact hRuns
  | fire => exact hRuns.wake session.now

end VenueSession

end OrderDesk
