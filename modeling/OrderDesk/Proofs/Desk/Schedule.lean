import OrderDesk.Demo
import OrderDesk.Proofs.Desk.Alarms
import OrderDesk.Proofs.Desk.Valuation

/-
  This file proves that a desk is a floor on which somebody
  decides what comes next: whatever clients and operators do
  to a desk, and however time passes, what has happened at
  the desk could be played on the floor.

  Key definitions include:
    * `Request`
    * `Deed`
    * `Desk.perform`
    * `Floor.Reaches`
    * `Desk.Shows`
    * `Desk.Played`

  Key theorems include:
    * `Desk.Played.settle`
    * `Desk.Played.undergo`
    * `Desk.agrees_undergo`
    * `Demo.agrees_undergo_desk`
-/

namespace OrderDesk

------------------------------------------------------------
-- Deeds
------------------------------------------------------------

/- What a client may ask for. -/
inductive Request where
  | submit (header : Header) (command : SubmitOrder)
  | cancel (header : Header) (request : CancelOrder)

/- The message in which a client asks. -/
def Request.envelope :
    Request → Envelope TradingMessage
| .submit header command => ⟨header, .submitOrder command⟩
| .cancel header request => ⟨header, .cancelOrder request⟩

/- The move by which a client asks. -/
def Request.move :
    Request → Move
| .submit header command => .submit header command
| .cancel header request => .cancel header request

/-
  What can be done to a desk: clients ask for something,
  time passes, with or without a stop at every deadline, and
  operators shut or open the gate, or start or stop the
  throttler.
-/
inductive Deed where
  | send (requests : List Request)
  | advance (ms : Nat)
  | jump (ms : Nat)
  | pause (reason : String)
  | resume
  | startThrottler
  | stopThrottler

/- Clients ask for no orders but those that are allowed. -/
def Deed.IsAllowed
    (allowed : SubmitOrder → Prop) :
    Deed → Prop
| .send requests =>
    ∀ request ∈ requests, request.move.IsAllowed allowed
| _ => True

namespace Desk

/- Do something to a desk. -/
def perform
    (desk : Desk) :
    Deed → Desk
| .send requests => desk.send (requests.map Request.envelope)
| .advance ms => desk.advance ms
| .jump ms => desk.jump ms
| .pause reason => desk.pause reason
| .resume => desk.resume
| .startThrottler => desk.startThrottler
| .stopThrottler => desk.stopThrottler

/- Do one thing after the other to a desk. -/
def undergo
    (desk : Desk)
    (deeds : List Deed) : Desk :=
  deeds.foldl perform desk

end Desk

------------------------------------------------------------
-- The Desk On The Floor
------------------------------------------------------------

/- Moves lead from one floor to another. -/
def Floor.Reaches
    (allowed : SubmitOrder → Prop)
    (start floor : Floor) : Prop :=
  ∃ moves,
    (∀ move ∈ moves, move.IsAllowed allowed) ∧
      start.play moves = floor

namespace Desk

/- The floor that a desk amounts to. -/
def asFloor
    (desk : Desk) : Floor where
  engine := desk.engine
  venue := desk.venue
  window := desk.throttler.map (·.window)
  inbox := desk.toEngine
  outbox := desk.toVenue
  reports := []
  pending := fillsOf desk.timers.pending
  executed := []
  published := desk.published.map Prod.snd

/-
  A floor has come as far as a desk, where messages that
  were taken from the queues of the desk, and alarms that
  ring, are still to be dealt with. What the venue reports
  arrives at once. The floor may hold on to fills whose
  timers are gone.
-/
structure Shows
    (desk : Desk)
    (inbox outbox : List (Envelope TradingMessage))
    (alarms : List Alarm)
    (floor : Floor) : Prop where
  engine : floor.engine = desk.engine
  venue : floor.venue = desk.venue
  connected : desk.venue.connected = true
  window : floor.window = desk.throttler.map (·.window)
  inbox : floor.inbox = inbox ++ desk.toEngine
  outbox : floor.outbox = outbox ++ desk.toVenue
  reports : floor.reports = []
  published : floor.published = desk.published.map Prod.snd
  fills :
    List.Subperm
      (alarms.filterMap Alarm.fill? ++
        fillsOf desk.timers.pending)
      floor.pending
  oneShot : OneShot desk.timers.pending

/- What has happened at a desk could be played on the floor. -/
def Played
    (allowed : SubmitOrder → Prop)
    (start : Floor)
    (inbox outbox : List (Envelope TradingMessage))
    (alarms : List Alarm)
    (desk : Desk) : Prop :=
  ∃ floor,
    start.Reaches allowed floor ∧
      desk.Shows inbox outbox alarms floor

variable {desk next : Desk} {start floor : Floor}
variable {allowed : SubmitOrder → Prop}
variable {envelope : Envelope TradingMessage}
variable {inbox outbox : List (Envelope TradingMessage)}
variable {inbox' outbox' : List (Envelope TradingMessage)}
variable {alarms alarms' : List Alarm}

/- A desk goes on as long as the floor can go on. -/
theorem Played.go
    (hPlayed : desk.Played allowed start inbox outbox alarms)
    (hNext :
      ∀ floor,
        desk.Shows inbox outbox alarms floor →
          ∃ moves,
            (∀ move ∈ moves, move.IsAllowed allowed) ∧
              next.Shows inbox' outbox' alarms'
                (floor.play moves)) :
    next.Played allowed start inbox' outbox' alarms' := by
  rcases hPlayed with ⟨floor, ⟨moves, hAllowed, hFloor⟩, hShows⟩
  rcases hNext floor hShows with ⟨more, hMore, hNext⟩
  refine ⟨_, ⟨moves ++ more, ?_, rfl⟩, ?_⟩
  · intro move hMove
    rcases List.mem_append.mp hMove with hMem | hMem
    · exact hAllowed move hMem
    · exact hMore move hMem
  · unfold Floor.play at hFloor hNext ⊢
    rw [List.foldl_append, hFloor]
    exact hNext

/- A desk goes on as long as the floor can make a move. -/
theorem Played.goOne
    (hPlayed : desk.Played allowed start inbox outbox alarms)
    (move : Move)
    (hMove : move.IsAllowed allowed)
    (hNext :
      ∀ floor,
        desk.Shows inbox outbox alarms floor →
          next.Shows inbox' outbox' alarms' (floor.move move)) :
    next.Played allowed start inbox' outbox' alarms' := by
  apply hPlayed.go
  intro floor hShows
  exact ⟨[move], by simpa using hMove, hNext floor hShows⟩

------------------------------------------------------------
-- The Engine's Turn
------------------------------------------------------------

theorem Shows.command
    (hShows : desk.Shows inbox outbox alarms floor)
    (envelope : Envelope TradingMessage) :
    (desk.command envelope).Shows inbox outbox alarms
      (floor.command envelope) := by
  have hWindow := hShows.window
  have hOutbox := hShows.outbox
  unfold Desk.command Floor.command
  cases hThrottler : desk.throttler with
  | none =>
      rw [hThrottler] at hWindow
      rw [hWindow]
      exact
        { hShows with
          window := rfl
          outbox := by simp [hOutbox] }
  | some throttler =>
      rw [hThrottler] at hWindow
      rw [hWindow]
      exact
        { hShows with
          window := rfl
          outbox := by
            simp [hOutbox, Throttler.send, Throttler.put] }

/- Commands go to the window or to the outbox. -/
theorem Shows.commands
    (hShows : desk.Shows inbox outbox alarms floor)
    (commands : List (Envelope TradingMessage)) :
    (commands.foldl Desk.command desk).Shows inbox outbox alarms
      (commands.foldl Floor.command floor) := by
  induction commands generalizing desk floor with
  | nil => exact hShows
  | cons envelope commands ih => exact ih (hShows.command envelope)

theorem Shows.deliverToEngine
    (hShows :
      desk.Shows (envelope :: inbox) outbox alarms floor) :
    (desk.deliverToEngine envelope).Shows inbox outbox alarms
      (floor.move (.serve (desk.stamps.next desk.now).1)) := by
  have hInbox := hShows.inbox
  have hPublished := hShows.published
  rw [List.cons_append] at hInbox
  unfold Desk.deliverToEngine Floor.move Floor.serve
  simp only [hInbox, hShows.engine]
  cases desk.engine.handle (desk.stamps.next desk.now).1
      envelope with
  | error e =>
      exact
        { hShows with
          engine := rfl
          inbox := rfl }
  | ok result =>
      apply Shows.commands
      exact
        { hShows with
          engine := rfl
          inbox := rfl
          published := by
            simp [hPublished, Function.comp_def] }

theorem Played.deliverToEngine
    (hPlayed : desk.Played allowed start inbox outbox alarms) :
    (inbox.foldl Desk.deliverToEngine desk).Played allowed start
      [] outbox alarms := by
  induction inbox generalizing desk with
  | nil => exact hPlayed
  | cons envelope inbox ih =>
      apply ih
      apply hPlayed.goOne (.serve (desk.stamps.next desk.now).1)
        trivial
      exact fun _ hShows => hShows.deliverToEngine

theorem Played.drainEngine
    (hPlayed : desk.Played allowed start [] outbox alarms) :
    desk.drainEngine.Played allowed start [] outbox alarms := by
  apply Played.deliverToEngine
  rcases hPlayed with ⟨floor, hReaches, hShows⟩
  exact
    ⟨floor, hReaches,
      { hShows with
        inbox := by simp [hShows.inbox] }⟩

------------------------------------------------------------
-- The Venue's Turn
------------------------------------------------------------

/- Reports that are on their way can arrive one by one. -/
theorem play_arrive
    {reports : List (Envelope TradingMessage)}
    (hReports : floor.reports = reports) :
    floor.play (List.replicate reports.length .arrive) =
      { floor with
        inbox := floor.inbox ++ reports
        reports := [] } := by
  induction reports generalizing floor with
  | nil =>
      rw [List.append_nil]
      change floor = { floor with reports := [] }
      rw [← hReports]
  | cons envelope rest ih =>
      have hArrive :
          floor.move .arrive =
            { floor with
              reports := rest
              inbox := floor.inbox ++ [envelope] } := by
        unfold Floor.move Floor.arrive
        rw [hReports]
        rfl
      rw [List.length_cons, List.replicate_succ]
      unfold Floor.play at ih ⊢
      rw [List.foldl_cons, hArrive, ih rfl]
      simp

theorem Shows.followVenue
    (step : VenueStep)
    (hShows : desk.Shows inbox outbox alarms floor)
    (hConnected : step.venue.connected = true) :
    (desk.followVenue step).Shows inbox outbox alarms
      ((floor.followVenue step).play
        (List.replicate step.reports.length .arrive)) := by
  have hReports :
      (floor.followVenue step).reports = step.reports := by
    simp [Floor.followVenue, hShows.reports]
  have hInbox := hShows.inbox
  have hFills := hShows.fills
  have hOnce := hShows.oneShot
  rw [play_arrive hReports]
  unfold Floor.followVenue Desk.followVenue
  cases hPending : step.pending with
  | none =>
      exact
        { hShows with
          venue := rfl
          connected := hConnected
          inbox := by simp [hInbox]
          reports := rfl
          fills := by simpa using hFills }
  | some pending =>
      exact
        { hShows with
          venue := rfl
          connected := hConnected
          inbox := by simp [hInbox]
          reports := rfl
          fills := by
            have hMore :=
              (List.subperm_append_right [pending]).mpr hFills
            simpa [Timers.once, fillsOf, Alarm.fill?] using hMore
          oneShot := by
            intro timer hTimer fill hFill
            rcases List.mem_append.mp hTimer with hMem | hMem
            · exact hOnce timer hMem fill hFill
            · cases List.mem_singleton.mp hMem
              rfl }

theorem isAllowed_of_mem_arrive
    {move : Move}
    {count : Nat}
    (hMove : move ∈ List.replicate count Move.arrive) :
    move.IsAllowed allowed := by
  cases List.eq_of_mem_replicate hMove
  trivial

theorem Shows.deliverToVenue
    (hShows :
      desk.Shows inbox (envelope :: outbox) alarms floor) :
    ∃ count,
      (desk.deliverToVenue envelope).Shows inbox outbox alarms
        (floor.play
          (.deliver (desk.stamps.next desk.now).1 ::
            List.replicate count .arrive)) := by
  have hOutbox := hShows.outbox
  have hReaction :=
    PaperVenue.reaction_handle
      (desk.stamps.next desk.now).1 envelope hShows.connected
  have hRest :
      { desk with
        stamps := (desk.stamps.next desk.now).2 }.Shows inbox
        outbox alarms
        { floor with outbox := outbox ++ desk.toVenue } :=
    { hShows with outbox := rfl }
  have hDeliver :
      floor.move (.deliver (desk.stamps.next desk.now).1) =
        { floor with
          outbox := outbox ++ desk.toVenue }.followVenue
          (desk.venue.handle (desk.stamps.next desk.now).1
            envelope) := by
    unfold Floor.move Floor.deliver
    rw [hOutbox, hShows.venue]
    rfl
  unfold Floor.play
  simp only [List.foldl_cons, hDeliver]
  exact
    ⟨_, hRest.followVenue _
      (hReaction.connected.trans hShows.connected)⟩

theorem Played.deliverToVenue
    (hPlayed : desk.Played allowed start inbox outbox alarms) :
    (outbox.foldl Desk.deliverToVenue desk).Played allowed start
      inbox [] alarms := by
  induction outbox generalizing desk with
  | nil => exact hPlayed
  | cons envelope outbox ih =>
      apply ih
      apply hPlayed.go
      intro floor hShows
      rcases hShows.deliverToVenue with ⟨count, hNext⟩
      refine ⟨_, ?_, hNext⟩
      intro move hMove
      rcases List.mem_cons.mp hMove with rfl | hArrive
      · trivial
      · exact isAllowed_of_mem_arrive hArrive

theorem Played.drainVenue
    (hPlayed : desk.Played allowed start inbox [] alarms) :
    desk.drainVenue.Played allowed start inbox [] alarms := by
  apply Played.deliverToVenue
  rcases hPlayed with ⟨floor, hReaches, hShows⟩
  exact
    ⟨floor, hReaches,
      { hShows with
        outbox := by simp [hShows.outbox] }⟩

------------------------------------------------------------
-- Alarms
------------------------------------------------------------

theorem Shows.rollOver
    (hShows : desk.Shows inbox outbox alarms floor) :
    desk.rollOver.Shows inbox outbox alarms (floor.move .roll) := by
  have hWindow := hShows.window
  have hOutbox := hShows.outbox
  unfold Desk.rollOver Floor.move Floor.turnWindow
  cases hThrottler : desk.throttler with
  | none =>
      rw [hThrottler] at hWindow
      rw [hWindow]
      exact { hShows with window := hShows.window }
  | some throttler =>
      rw [hThrottler] at hWindow
      rw [hWindow]
      exact
        { hShows with
          window := rfl
          outbox := by
            simp [hOutbox, Throttler.roll, Throttler.put] }

/-
  The floor can do what the venue does when a timer fires:
  it executes the fill and reports it in one go.
-/
theorem exists_play_settle
    {fill : PendingFill}
    (stamp : Stamp)
    (hPending : fill ∈ floor.pending)
    (hConnected : floor.venue.connected = true) :
    ∃ moves : List Move,
      (∀ move ∈ moves, move.IsAllowed allowed) ∧
        floor.play moves =
          { floor with
            pending := floor.pending.erase fill }.followVenue
            (floor.venue.settle stamp fill) := by
  by_cases hResting : floor.venue.isResting fill.orderId
  · exact
      ⟨[.execute fill, .report stamp fill],
        by simp [Move.IsAllowed],
        Floor.move_execute_report floor stamp fill hPending
          hResting hConnected⟩
  · refine ⟨[.execute fill], by simp [Move.IsAllowed], ?_⟩
    simp [Floor.play, Floor.move, Floor.execute, hPending,
      hResting, Floor.followVenue, PaperVenue.settle]

theorem connected_settle
    (venue : PaperVenue)
    (stamp : Stamp)
    (fill : PendingFill) :
    (venue.settle stamp fill).venue.connected =
      venue.connected := by
  unfold PaperVenue.settle
  split <;> rfl

theorem Played.ring
    {alarm : Alarm}
    (hPlayed :
      desk.Played allowed start inbox outbox
        (alarm :: alarms)) :
    (desk.ring alarm).Played allowed start inbox outbox
      alarms := by
  cases alarm with
  | rollover =>
      apply hPlayed.goOne .roll trivial
      intro floor hShows
      apply Shows.rollOver
      exact { hShows with fills := hShows.fills }
  | fill pending =>
      apply hPlayed.go
      intro floor hShows
      have hFills :
          List.Subperm
            (pending ::
              (alarms.filterMap Alarm.fill? ++
                fillsOf desk.timers.pending))
            floor.pending :=
        hShows.fills
      rcases exists_play_settle
          (desk.stamps.next desk.now).1
          (hFills.subset List.mem_cons_self)
          (hShows.venue ▸ hShows.connected) with
        ⟨moves, hMoves, hSettle⟩
      -- The floor lets go of the fill before the venue settles it.
      have hRest :
          { desk with
            stamps := (desk.stamps.next desk.now).2 }.Shows inbox
            outbox alarms
            { floor with
              pending := floor.pending.erase pending } :=
        { hShows with
          fills := by simpa using hFills.erase pending }
      have hNext :=
        hRest.followVenue
          (floor.venue.settle (desk.stamps.next desk.now).1
            pending)
          ((connected_settle _ _ _).trans
            (hShows.venue ▸ hShows.connected))
      rw [← hSettle, hShows.venue] at hNext
      unfold Floor.play at hNext
      rw [← List.foldl_append] at hNext
      refine ⟨_, ?_, hNext⟩
      intro move hMove
      rcases List.mem_append.mp hMove with hMem | hMem
      · exact hMoves move hMem
      · exact isAllowed_of_mem_arrive hMem

/- All alarms that ring are dealt with. -/
theorem Played.ringAll
    (hPlayed : desk.Played allowed start inbox outbox alarms) :
    (alarms.foldl Desk.ring desk).Played allowed start inbox outbox
      [] := by
  induction alarms generalizing desk with
  | nil => exact hPlayed
  | cons alarm alarms ih => exact ih hPlayed.ring

------------------------------------------------------------
-- Instants
------------------------------------------------------------

theorem Played.drain
    (hPlayed : desk.Played allowed start [] [] alarms) :
    desk.drain.Played allowed start [] [] alarms :=
  hPlayed.drainEngine.drainVenue.drainEngine

theorem Played.fire
    (hPlayed : desk.Played allowed start [] [] []) :
    desk.fire.Played allowed start [] [] [] := by
  apply Played.drain
  apply Played.ringAll
  rcases hPlayed with ⟨floor, hReaches, hShows⟩
  -- The fills that ring now have left the timers.
  have hPerm :=
    fills_fire_perm desk.timers desk.now hShows.oneShot
  exact
    ⟨floor, hReaches,
      { hShows with
        fills := hPerm.subperm.trans hShows.fills
        oneShot := oneShot_fire _ _ hShows.oneShot }⟩

/- Everything happens that can happen at an instant. -/
theorem Played.settle
    (hPlayed : desk.Played allowed start [] [] []) :
    desk.settle.Played allowed start [] [] [] :=
  hPlayed.drain.fire.fire

/- Nothing is done by the time alone. -/
theorem Played.at
    (hPlayed : desk.Played allowed start inbox outbox alarms)
    (now : Nat) :
    { desk with now := now }.Played allowed start inbox outbox
      alarms := by
  rcases hPlayed with ⟨floor, hReaches, hShows⟩
  exact ⟨floor, hReaches, { hShows with }⟩

theorem Played.wake
    (hPlayed : desk.Played allowed start [] [] [])
    (now : Nat) :
    (timed.wake now desk).Played allowed start [] [] [] := by
  dsimp only [timed, Desk.wake]
  exact (hPlayed.at now).settle

theorem Played.advance
    (hPlayed : desk.Played allowed start [] [] [])
    (ms : Nat) :
    (desk.advance ms).Played allowed start [] [] [] :=
  Timed.advance_induction
    (fun _ (desk : Desk) => desk.Played allowed start [] [] [])
    (fun later : Desk =>
      Played allowed start [] [] []
        { later with now := desk.now + ms })
    (fun _ _ deadline hPlayed _ _ => hPlayed.wake deadline)
    (fun _ _ hPlayed _ _ => hPlayed.at _)
    (Nat.le_add_right _ ms) hPlayed

theorem Played.jump
    (hPlayed : desk.Played allowed start [] [] [])
    (ms : Nat) :
    (desk.jump ms).Played allowed start [] [] [] :=
  hPlayed.wake (desk.now + ms)

------------------------------------------------------------
-- Clients And Operators
------------------------------------------------------------

theorem play_requests
    (requests : List Request)
    (floor : Floor) :
    floor.play (requests.map Request.move) =
      { floor with
        inbox :=
          floor.inbox ++ requests.map Request.envelope } := by
  induction requests generalizing floor with
  | nil => simp [Floor.play]
  | cons request requests ih =>
      have hEnqueue :
          floor.move request.move =
            floor.enqueue request.envelope := by
        cases request <;> rfl
      unfold Floor.play at ih ⊢
      rw [List.map_cons, List.foldl_cons, hEnqueue, ih]
      simp [Floor.enqueue]

theorem Played.send
    {requests : List Request}
    (hPlayed : desk.Played allowed start [] [] [])
    (hAllowed :
      ∀ request ∈ requests, request.move.IsAllowed allowed) :
    (desk.send (requests.map Request.envelope)).Played allowed
      start [] [] [] := by
  apply Played.settle
  apply hPlayed.go
  intro floor hShows
  refine ⟨requests.map Request.move, ?_, ?_⟩
  · intro move hMove
    rcases List.mem_map.mp hMove with ⟨request, hRequest, rfl⟩
    exact hAllowed request hRequest
  · rw [play_requests]
    exact { hShows with inbox := by simp [hShows.inbox] }

theorem Played.pause
    (hPlayed : desk.Played allowed start [] [] [])
    (reason : String) :
    (desk.pause reason).Played allowed start [] [] [] := by
  apply hPlayed.goOne (.pause reason) trivial
  intro floor hShows
  exact
    { hShows with
      engine := congrArg (Engine.pause · reason) hShows.engine }

theorem Played.resume
    (hPlayed : desk.Played allowed start [] [] []) :
    desk.resume.Played allowed start [] [] [] := by
  apply hPlayed.goOne .resume trivial
  intro floor hShows
  exact
    { hShows with
      engine := congrArg Engine.resume hShows.engine }

theorem Played.startThrottler
    (hPlayed : desk.Played allowed start [] [] []) :
    desk.startThrottler.Played allowed start [] [] [] := by
  unfold Desk.startThrottler
  cases hThrottler : desk.throttler with
  | none => exact hPlayed
  | some throttler =>
      unfold Throttler.start
      refine Played.settle ?_
      cases hTimer : throttler.timer with
      | some id =>
          -- A throttler that runs already is left alone.
          rcases hPlayed with ⟨floor, hReaches, hShows⟩
          exact
            ⟨floor, hReaches,
              { hShows with
                window := by simp [hShows.window, hThrottler]
                outbox := by simp [hShows.outbox] }⟩
      | none =>
          apply hPlayed.goOne .start trivial
          intro floor hShows
          have hWindow := hShows.window
          have hFills :=
            fillsOf_periodic desk.now throttler.intervalMs
              desk.timers
          rw [hThrottler] at hWindow
          unfold Floor.move Floor.turnWindow
          rw [hWindow]
          exact
            { hShows with
              window := rfl
              outbox := by
                simp [hShows.outbox, Throttler.put]
              fills := hFills ▸ hShows.fills
              oneShot := oneShot_periodic _ _ hShows.oneShot }

theorem Played.stopThrottler
    (hPlayed : desk.Played allowed start [] [] []) :
    desk.stopThrottler.Played allowed start [] [] [] := by
  unfold Desk.stopThrottler Throttler.stop
  cases hThrottler : desk.throttler with
  | none => exact hPlayed
  | some throttler =>
      apply hPlayed.goOne .stop trivial
      intro floor hShows
      have hWindow := hShows.window
      have hOutbox := hShows.outbox
      rw [hThrottler] at hWindow
      unfold Floor.move Floor.turnWindow
      rw [hWindow]
      dsimp only
      cases hTimer : throttler.timer with
      | none =>
          exact
            { hShows with
              window := rfl
              outbox := by simp [hOutbox] }
      | some id =>
          have hFewer := cancel_sublist id desk.timers
          exact
            { hShows with
              window := rfl
              outbox := by simp [hOutbox]
              fills :=
                ((hFewer.filterMap _).append_left _).subperm.trans
                  hShows.fills
              oneShot := fun timer hTimer =>
                hShows.oneShot timer (hFewer.subset hTimer) }

/- Whatever is done to a desk could be played on the floor. -/
theorem Played.perform
    {deed : Deed}
    (hPlayed : desk.Played allowed start [] [] [])
    (hDeed : deed.IsAllowed allowed) :
    (desk.perform deed).Played allowed start [] [] [] := by
  cases deed with
  | send requests => exact hPlayed.send hDeed
  | advance ms => exact hPlayed.advance ms
  | jump ms => exact hPlayed.jump ms
  | pause reason => exact hPlayed.pause reason
  | resume => exact hPlayed.resume
  | startThrottler => exact hPlayed.startThrottler
  | stopThrottler => exact hPlayed.stopThrottler

/- One deed after the other could be played on the floor. -/
theorem Played.undergo
    {deeds : List Deed}
    (hPlayed : desk.Played allowed start [] [] [])
    (hDeeds : ∀ deed ∈ deeds, deed.IsAllowed allowed) :
    (desk.undergo deeds).Played allowed start [] [] [] := by
  induction deeds generalizing desk with
  | nil => exact hPlayed
  | cons deed deeds ih =>
      apply ih
      · exact hPlayed.perform (hDeeds deed List.mem_cons_self)
      · exact fun other hOther =>
          hDeeds other (List.mem_cons_of_mem _ hOther)

------------------------------------------------------------
-- New Desks
------------------------------------------------------------

/- The limit of the window of a throttler, if there is one. -/
def limitOf
    (throttler : Option (Throttler (Envelope TradingMessage))) :
    Option { limit : Nat // 0 < limit } :=
  throttler.map fun throttler =>
    ⟨throttler.window.limit, throttler.window.limit_pos⟩

theorem window_of_new
    {name : String}
    {intervalMs limit : Nat}
    {throttler : Throttler (Envelope TradingMessage)}
    (hNew : Throttler.new name intervalMs limit = .ok throttler) :
    throttler.window =
      Window.new throttler.window.limit
        throttler.window.limit_pos := by
  rcases Throttler.eq_of_new hNew with ⟨_, _, rfl⟩
  rfl

theorem played_new
    {throttler : Option (Throttler (Envelope TradingMessage))}
    (allowed : SubmitOrder → Prop)
    (gate : RiskGate)
    (settings : PaperSettings)
    (stamps : Stamps)
    (hFresh :
      ∀ t ∈ throttler,
        t.window = Window.new t.window.limit t.window.limit_pos) :
    (Desk.new gate settings throttler stamps).Played allowed
      (Floor.new gate settings (limitOf throttler)) [] [] [] := by
  refine ⟨_, ⟨[], by simp, rfl⟩, ?_⟩
  exact
    { engine := rfl
      venue := rfl
      connected := rfl
      window := by
        cases throttler with
        | none => rfl
        | some t => exact congrArg some (hFresh t rfl).symm
      inbox := rfl
      outbox := rfl
      reports := rfl
      published := rfl
      fills := List.Subperm.refl _
      oneShot := by
        intro timer hTimer
        cases hTimer }

theorem asFloor_new
    {throttler : Option (Throttler (Envelope TradingMessage))}
    (gate : RiskGate)
    (settings : PaperSettings)
    (stamps : Stamps)
    (hFresh :
      ∀ t ∈ throttler,
        t.window = Window.new t.window.limit t.window.limit_pos) :
    (Desk.new gate settings throttler stamps).asFloor =
      Floor.new gate settings (limitOf throttler) := by
  unfold Desk.asFloor Floor.new Desk.new limitOf
  cases throttler with
  | none => rfl
  | some t =>
      simp only [Option.map_some, ← hFresh t rfl]
      rfl

/- Engine and venue of a desk agree if they do on the floor. -/
theorem Shows.agrees
    (hShows : desk.Shows inbox outbox alarms floor)
    (hAgrees : floor.Agrees) :
    desk.asFloor.Agrees where
  noRejection := by
    have hFree := hAgrees.noRejection
    rw [hShows.published] at hFree
    exact hFree
  course := by
    have hCourse := hAgrees.course
    rw [hShows.published] at hCourse
    exact hCourse
  resting := by
    have hResting := hAgrees.resting
    rw [hShows.engine, hShows.venue] at hResting
    exact hResting
  closed := by
    have hClosed := hAgrees.closed
    rw [hShows.engine, hShows.venue] at hClosed
    exact hClosed
  filled := by
    have hFilled := hAgrees.filled
    rw [hShows.engine] at hFilled
    exact hFilled

/-
  Whatever is done to a desk, its engine and its venue
  agree, provided that the gate values orders at the price
  at which the venue fills them, and that no price is next
  to the largest one.
-/
theorem agrees_undergo
    {gate : RiskGate}
    {settings : PaperSettings}
    {throttler : Option (Throttler (Envelope TradingMessage))}
    {deeds : List Deed}
    (stamps : Stamps)
    (hFresh :
      ∀ t ∈ throttler,
        t.window = Window.new t.window.limit t.window.limit_pos)
    (hGate :
      gate.referencePrice = some settings.referencePrice)
    (hReference : settings.referencePrice.IsModerate)
    (hDeeds :
      ∀ deed ∈ deeds, deed.IsAllowed SubmitOrder.IsModerate) :
    ((Desk.new gate settings throttler stamps).undergo
      deeds).asFloor.Agrees := by
  have hNew :=
    played_new SubmitOrder.IsModerate gate settings stamps hFresh
  rcases hNew.undergo hDeeds with
    ⟨_, ⟨moves, hMoves, rfl⟩, hShows⟩
  exact
    hShows.agrees
      ((Floor.orderly_new gate settings (limitOf throttler)).play
        (Floor.allAccountable_of_isModerate _ hGate hReference
          hMoves)).agrees

end Desk

/-
  The desk of the program is a new desk whose gate values
  orders at the price at which its venue fills them.
-/
theorem Demo.eq_of_desk
    {config : Config}
    {stamps : Stamps}
    {desk : Desk}
    (hDesk : Demo.desk config stamps = .ok desk) :
    ∃ throttler : Throttler (Envelope TradingMessage),
      throttler.window =
          Window.new throttler.window.limit
            throttler.window.limit_pos ∧
        desk =
          Desk.new
            (RiskGate.new config.risk
              (some config.paper.referencePrice))
            config.paper (some throttler) stamps := by
  unfold Demo.desk at hDesk
  cases hThrottler :
      Throttler.new Desk.throttlerName config.throttle.intervalMs
        config.throttle.maxPerInterval with
  | error e =>
      rw [hThrottler] at hDesk
      cases hDesk
  | ok throttler =>
      rw [hThrottler] at hDesk
      cases hDesk
      exact ⟨throttler, Desk.window_of_new hThrottler, rfl⟩

theorem Demo.played_desk
    {config : Config}
    {stamps : Stamps}
    {desk : Desk}
    (allowed : SubmitOrder → Prop)
    (hDesk : Demo.desk config stamps = .ok desk) :
    desk.Played allowed desk.asFloor [] [] [] ∧
      desk.published = [] := by
  rcases eq_of_desk hDesk with ⟨throttler, hWindow, rfl⟩
  have hFresh :
      ∀ other ∈ some throttler,
        other.window =
          Window.new other.window.limit other.window.limit_pos := by
    intro other hOther
    cases hOther
    exact hWindow
  rw [Desk.asFloor_new _ _ _ hFresh]
  exact ⟨Desk.played_new allowed _ _ _ hFresh, rfl⟩

/- Engine and venue of the program's desk agree. -/
theorem Demo.agrees_undergo_desk
    {config : Config}
    {stamps : Stamps}
    {desk : Desk}
    {deeds : List Deed}
    (hDesk : Demo.desk config stamps = .ok desk)
    (hReference : config.paper.referencePrice.IsModerate)
    (hDeeds :
      ∀ deed ∈ deeds, deed.IsAllowed SubmitOrder.IsModerate) :
    (desk.undergo deeds).asFloor.Agrees := by
  rcases eq_of_desk hDesk with ⟨throttler, hFresh, rfl⟩
  apply Desk.agrees_undergo stamps
  · intro other hOther
    cases hOther
    exact hFresh
  · rfl
  · exact hReference
  · exact hDeeds

end OrderDesk
