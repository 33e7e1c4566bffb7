import Mathlib.Data.List.Induction
import Mathlib.Data.List.Perm.Subperm
import OrderDesk.Proofs.Decimal.Value
import OrderDesk.Proofs.Venue.Course

/-
  This file proves when a paper venue fills orders. Every
  fill that it reports is that of a submission which it
  accepted the latency before, and no submission is filled
  twice. A submission that has its identifier to itself for
  as long as the latency is filled as a whole when that time
  is over, at its own price, unless a cancel comes first.

  A venue knows orders by their identifiers, but every
  submission sets a timer of its own. So a timer whose order
  was cancelled fills an order that was submitted again
  under the same identifier.

  Key definitions include:
    * `duesOf`
    * `OrderView.IsTimely`
    * `OrderView.Course`
    * `VenueSession.KeepsTime`

  Key theorems include:
    * `OrderView.IsTimely.move`
    * `OrderView.Course.move`
    * `VenueSession.keepsTime_new`
    * `VenueSession.stale_timer_fills_successor`
    * `VenueSession.exists_live_eq_advance`
-/

namespace OrderDesk

------------------------------------------------------------
-- Fills That Are Due
------------------------------------------------------------

/-
  When each submission of an order is to be filled, and
  with what: all of it, at its own price if it has one.
-/
def duesOf
    (settings : PaperSettings)
    (id : OrderId)
    (taken : List (Nat × Envelope TradingMessage)) :
    List (Nat × Fill) :=
  taken.filterMap fun taking =>
    (submissionOf? id taking.2).map fun command =>
      (taking.1 + settings.fillLatencyMs,
        ⟨command.quantity,
          command.price.getD settings.referencePrice⟩)

theorem duesOf_nil
    (settings : PaperSettings)
    (id : OrderId) :
    duesOf settings id [] = [] :=
  rfl

theorem duesOf_append
    (settings : PaperSettings)
    (id : OrderId)
    (first second : List (Nat × Envelope TradingMessage)) :
    duesOf settings id (first ++ second) =
      duesOf settings id first ++ duesOf settings id second :=
  List.filterMap_append

theorem exists_of_mem_duesOf
    {settings : PaperSettings}
    {id : OrderId}
    {taken : List (Nat × Envelope TradingMessage)}
    {due : Nat × Fill}
    (hDue : due ∈ duesOf settings id taken) :
    ∃ taking ∈ taken,
      submissionOf? id taking.2 ≠ none ∧
        due.1 = taking.1 + settings.fillLatencyMs := by
  rcases List.mem_filterMap.mp hDue with
    ⟨taking, hTaking, hMap⟩
  rcases Option.map_eq_some_iff.mp hMap with
    ⟨command, hCommand, rfl⟩
  refine ⟨taking, hTaking, ?_, rfl⟩
  rw [hCommand]
  exact Option.some_ne_none command

namespace OrderView

variable {settings : PaperSettings}
variable {id : OrderId}
variable {view next : OrderView}
variable {moment : Moment}
variable {taken : List (Nat × Envelope TradingMessage)}

theorem fills_of_told_append
    {more : List (Nat × OrderEvent)}
    (hTold : next.told = view.told ++ more) :
    next.fills =
      view.fills ++
        more.filterMap fun report =>
          report.2.occurrence.fill?.map
            fun fill => (report.1, fill) := by
  unfold fills
  rw [hTold, List.filterMap_append]

theorem fills_of_told_singleton
    {event : OrderEvent}
    {now : Nat}
    (hTold : next.told = view.told ++ [(now, event)])
    (hFill : event.occurrence.fill? = none) :
    next.fills = view.fills := by
  rw [fills_of_told_append hTold]
  simp [hFill]

/-
  An order is timely at the venue: its fills were reported
  in the past, its timers are not overdue, and each of them
  is due to one of its submissions.
-/
structure IsTimely
    (settings : PaperSettings)
    (id : OrderId)
    (taken : List (Nat × Envelope TradingMessage))
    (view : OrderView) : Prop where
  taken_le : ∀ taking ∈ taken, taking.1 ≤ view.now
  ahead : ∀ timer ∈ view.timers, view.now ≤ timer.1
  booked :
    (view.fills ++ view.timers).Subperm (duesOf settings id taken)

/- Time does not go back. -/
theorem now_le_of_move
    (hMove : ViewMove settings id view moment next) :
    view.now ≤ next.now := by
  cases hMove with
  | waited ms => exact Nat.le_add_right _ _
  | _ => exact Nat.le_refl _

theorem told_prefix_of_move
    (hMove : ViewMove settings id view moment next) :
    view.told <+: next.told := by
  cases hMove with
  | accepted => exact List.prefix_append _ _
  | cancelled => exact List.prefix_append _ _
  | fired => exact List.prefix_append _ _
  | _ => exact List.prefix_refl _

/-
  Timers that fire when they are not overdue fill the order
  with the first of them, if it rests.
-/
theorem fills_fire
    {due : List (Nat × Fill)}
    (hAhead : ∀ timer ∈ view.timers, view.now ≤ timer.1)
    (hDue :
      due.Perm
        (view.timers.filter fun timer => timer.1 ≤ view.now)) :
    (view.fire id due).fills =
      view.fills ++
        if view.isResting then due.head?.toList else [] := by
  rw [fills_of_told_append rfl]
  cases hResting : view.isResting with
  | false => rfl
  | true =>
      cases due with
      | nil => rfl
      | cons timer due =>
          have hTimer :=
            List.mem_filter.mp (hDue.subset List.mem_cons_self)
          have hNow : view.now = timer.1 :=
            Nat.le_antisymm (hAhead timer hTimer.1)
              (of_decide_eq_true hTimer.2)
          simp [Occurrence.fill?, hNow]

/- Of the timers of an order none is lost when some of them fire. -/
theorem booked_fire
    {due dues : List (Nat × Fill)}
    (hAhead : ∀ timer ∈ view.timers, view.now ≤ timer.1)
    (hDue :
      due.Perm
        (view.timers.filter fun timer => timer.1 ≤ view.now))
    (hBooked : (view.fills ++ view.timers).Subperm dues) :
    ((view.fire id due).fills ++
        (view.fire id due).timers).Subperm
      dues := by
  have hFirst :
      (if view.isResting then due.head?.toList else []).Sublist
        due := by
    split
    · cases due with
      | nil => exact List.Sublist.refl _
      | cons timer due =>
          exact (List.nil_sublist due).cons_cons timer
    · exact List.nil_sublist due
  have hTimers :
      (due ++
          view.timers.filter
            fun timer => !(timer.1 ≤ view.now)).Perm
        view.timers :=
    (hDue.append_right _).trans
      (List.filter_append_perm _ view.timers)
  rw [fills_fire hAhead hDue, List.append_assoc]
  exact
    ((hFirst.append_right _).append_left _).subperm.trans
      ((hTimers.append_left view.fills).subperm.trans hBooked)

/- A message that asks for nothing makes nothing due. -/
theorem duesOf_message_eq_nil
    {envelope : Envelope TradingMessage}
    (settings : PaperSettings)
    (now : Nat)
    (hSubmission : submissionOf? id envelope = none) :
    duesOf settings id [(now, envelope)] = [] := by
  simp [duesOf, hSubmission]

/- What was taken was taken in the past, whatever happens. -/
theorem IsTimely.taken_le_of_move
    (hTimely : view.IsTimely settings id taken)
    (hMove : ViewMove settings id view moment next) :
    ∀ taking ∈ taken ++ (moment.taking? view.now).toList,
      taking.1 ≤ next.now := by
  intro taking hTaking
  refine Nat.le_trans ?_ (now_le_of_move hMove)
  rcases List.mem_append.mp hTaking with hOld | hNew
  · exact hTimely.taken_le taking hOld
  · exact Nat.le_of_eq (Moment.time_of_taking hNew)

/- No timer is passed over, whatever happens. -/
theorem IsTimely.ahead_of_move
    (hTimely : view.IsTimely settings id taken)
    (hMove : ViewMove settings id view moment next) :
    ∀ timer ∈ next.timers, next.now ≤ timer.1 := by
  cases hMove with
  | kept => exact hTimely.ahead
  | accepted envelope command =>
      intro timer hTimer
      rcases List.mem_append.mp hTimer with hOld | hNew
      · exact hTimely.ahead timer hOld
      · cases List.mem_singleton.mp hNew
        exact Nat.le_add_right _ _
  | cancelled => exact hTimely.ahead
  | stayed => exact hTimely.ahead
  | waited ms hAhead => exact hAhead
  | fired =>
      intro timer hTimer
      exact hTimely.ahead timer (List.mem_filter.mp hTimer).1

/-
  What was filled and what is still to be filled is due to
  submissions that were taken, whatever happens.
-/
theorem IsTimely.booked_of_move
    (hTimely : view.IsTimely settings id taken)
    (hMove : ViewMove settings id view moment next) :
    (next.fills ++ next.timers).Subperm
      (duesOf settings id
        (taken ++ (moment.taking? view.now).toList)) := by
  have hBooked := hTimely.booked
  rw [duesOf_append]
  cases hMove with
  | kept envelope hSubmission =>
      unfold Moment.taking?
      rw [Option.toList_some,
        duesOf_message_eq_nil settings view.now hSubmission,
        List.append_nil]
      exact hBooked
  | accepted envelope command name hSubmission =>
      have hDues :
          duesOf settings id [(view.now, envelope)] =
            [(view.now + settings.fillLatencyMs,
              ⟨command.quantity,
                command.price.getD settings.referencePrice⟩)] := by
        simp [duesOf, hSubmission]
      unfold Moment.taking?
      rw [Option.toList_some, hDues,
        fills_of_told_singleton rfl rfl, ← List.append_assoc]
      exact (List.subperm_append_right _).mpr hBooked
  | cancelled envelope hSubmission =>
      unfold Moment.taking?
      rw [Option.toList_some,
        duesOf_message_eq_nil settings view.now hSubmission,
        List.append_nil, fills_of_told_singleton rfl rfl]
      exact hBooked
  | stayed =>
      rw [Moment.taking?, Option.toList_none, duesOf_nil,
        List.append_nil]
      exact hBooked
  | waited =>
      rw [Moment.taking?, Option.toList_none, duesOf_nil,
        List.append_nil]
      exact hBooked
  | fired due hDue =>
      rw [Moment.taking?, Option.toList_none, duesOf_nil,
        List.append_nil]
      exact booked_fire hTimely.ahead hDue hBooked

/- An order stays timely, whatever happens. -/
theorem IsTimely.move
    (hTimely : view.IsTimely settings id taken)
    (hMove : ViewMove settings id view moment next) :
    next.IsTimely settings id
      (taken ++ (moment.taking? view.now).toList) where
  taken_le := hTimely.taken_le_of_move hMove
  ahead := hTimely.ahead_of_move hMove
  booked := hTimely.booked_of_move hMove

------------------------------------------------------------
-- The Course Of One Submission
------------------------------------------------------------

/- The fills of the order that were reported in a span of time. -/
def fillsWithin
    (start last : Nat)
    (view : OrderView) : List (Nat × Fill) :=
  view.fills.filter fun fill =>
    start ≤ fill.1 && fill.1 ≤ last

/-
  No submission of the order is taken so close to the given
  time that the fill of one could meet the other.
-/
def StandsApart
    (settings : PaperSettings)
    (id : OrderId)
    (time : Nat)
    (taken : List (Nat × Envelope TradingMessage)) : Prop :=
  ∀ taking ∈ taken,
    submissionOf? id taking.2 ≠ none →
      taking.1 + settings.fillLatencyMs < time ∨
        time + settings.fillLatencyMs < taking.1

/-
  What has become of a submission that was accepted at time
  `start`, given the messages that were taken `since`. It
  waits to be filled; or it was cancelled by the first
  cancel, which came in time, and nothing was filled; or it
  was filled once, as a whole and just in time, and no
  cancel had come before that.
-/
inductive Course
    (id : OrderId)
    (start last : Nat)
    (fill : Fill)
    (since : List (Nat × Envelope TradingMessage))
    (view : OrderView) : Prop where
  | waiting
      (hNow : view.now ≤ last)
      (hResting : view.isResting = true)
      (hTimers : view.timers = [(last, fill)])
      (hUnasked : ∀ taking ∈ since, isCancelOf id taking.2 = false)
      (hNone : view.fillsWithin start last = [])
  | cancelled
      (before later : List (Nat × Envelope TradingMessage))
      (time : Nat)
      (cancel : Envelope TradingMessage)
      (hSince : since = before ++ (time, cancel) :: later)
      (hUnasked :
        ∀ taking ∈ before, isCancelOf id taking.2 = false)
      (hCancel : isCancelOf id cancel = true)
      (hTime : time ≤ last)
      (hTold : (time, ⟨id, .cancelled⟩) ∈ view.told)
      (hNone : view.fillsWithin start last = [])
      (hGone : view.now ≤ last → view.isResting = false)
  | filled
      (hNow : last ≤ view.now)
      (hLate :
        ∀ taking ∈ since,
          isCancelOf id taking.2 = true → last ≤ taking.1)
      (hFilled : view.fillsWithin start last = [(last, fill)])
      (hGone : view.now ≤ last → view.isResting = false)

/- What is reported later is not reported within the span. -/
theorem fillsWithin_of_told
    {start last : Nat}
    {more : List (Nat × OrderEvent)}
    (hTold : next.told = view.told ++ more)
    (hMore :
      ∀ report ∈ more,
        report.2.occurrence.fill? ≠ none → last < report.1) :
    next.fillsWithin start last = view.fillsWithin start last := by
  unfold fillsWithin
  rw [fills_of_told_append hTold, List.filter_append]
  have hNone :
      (more.filterMap fun report =>
          report.2.occurrence.fill?.map
            fun fill => (report.1, fill)).filter
          (fun fill => start ≤ fill.1 && fill.1 ≤ last) =
        [] := by
    rw [List.filter_eq_nil_iff]
    intro fill hFill
    rcases List.mem_filterMap.mp hFill with
      ⟨report, hReport, hMap⟩
    rcases Option.map_eq_some_iff.mp hMap with ⟨f, hSome, rfl⟩
    have hLater := hMore report hReport (by simp [hSome])
    simp
    omega
  rw [hNone, List.append_nil]

theorem fillsWithin_of_told_singleton
    {start last now : Nat}
    {event : OrderEvent}
    (hTold : next.told = view.told ++ [(now, event)])
    (hFill : event.occurrence.fill? = none) :
    next.fillsWithin start last = view.fillsWithin start last := by
  unfold fillsWithin
  rw [fills_of_told_singleton hTold hFill]

/-
  An order that is gone until its time is over stays so, and
  nothing of it is filled by then, if it is not submitted
  again.
-/
theorem gone_of_move
    {start last : Nat}
    (hMove : ViewMove settings id view moment next)
    (hGone : view.now ≤ last → view.isResting = false)
    (hApart :
      ∀ taking ∈ moment.taking? view.now,
        submissionOf? id taking.2 ≠ none → last < taking.1) :
    (next.now ≤ last → next.isResting = false) ∧
      next.fillsWithin start last =
        view.fillsWithin start last := by
  cases hMove with
  | kept => exact ⟨hGone, rfl⟩
  | stayed => exact ⟨hGone, rfl⟩
  | waited ms =>
      exact
        ⟨fun hNow => hGone (Nat.le_trans (Nat.le_add_right _ _) hNow),
          rfl⟩
  | accepted envelope command name hSubmission =>
      have hLater : last < view.now :=
        hApart _ rfl (by simp [hSubmission])
      exact
        ⟨fun hNow => absurd hNow (Nat.not_le.mpr hLater),
          fillsWithin_of_told_singleton rfl rfl⟩
  | cancelled =>
      exact ⟨fun _ => rfl, fillsWithin_of_told_singleton rfl rfl⟩
  | fired due =>
      by_cases hNow : view.now ≤ last
      · have hResting := hGone hNow
        refine ⟨fun _ => ?_, ?_⟩
        · unfold OrderView.fire
          rw [hResting]
          rfl
        apply fillsWithin_of_told rfl
        intro report hReport
        rw [hResting] at hReport
        cases hReport
      · refine ⟨fun hNext => absurd hNext hNow, ?_⟩
        apply fillsWithin_of_told rfl
        intro report hReport _
        split at hReport
        · rcases Option.map_eq_some_iff.mp
              (Option.mem_toList.mp hReport) with
            ⟨timer, _, rfl⟩
          exact Nat.not_le.mp hNow
        · cases hReport

/- When its time has come, an order that waits is filled. -/
theorem Course.fire
    {start last : Nat}
    {fill : Fill}
    {due : List (Nat × Fill)}
    {since : List (Nat × Envelope TradingMessage)}
    (hStart : start ≤ last)
    (hNow : view.now ≤ last)
    (hResting : view.isResting = true)
    (hTimers : view.timers = [(last, fill)])
    (hUnasked : ∀ taking ∈ since, isCancelOf id taking.2 = false)
    (hNone : view.fillsWithin start last = [])
    (hDue :
      due.Perm
        (view.timers.filter fun timer => timer.1 ≤ view.now)) :
    Course id start last fill since (view.fire id due) := by
  have hAhead : ∀ timer ∈ view.timers, view.now ≤ timer.1 := by
    intro timer hTimer
    rw [hTimers] at hTimer
    cases List.mem_singleton.mp hTimer
    exact hNow
  have hFills :
      (view.fire id due).fills =
        view.fills ++
          if view.isResting then due.head?.toList else [] :=
    fills_fire hAhead hDue
  rw [hTimers] at hDue
  by_cases hLast : last ≤ view.now
  · have hOwn : due = [(last, fill)] := by
      rw [List.filter_cons_of_pos (by simpa using hLast)] at hDue
      exact List.perm_singleton.mp hDue
    subst hOwn
    apply Course.filled
    · exact hLast
    · intro taking hTaking hCancel
      rw [hUnasked taking hTaking] at hCancel
      cases hCancel
    · unfold fillsWithin at hNone ⊢
      rw [hFills, List.filter_append, hNone, hResting]
      simp [hStart]
    · intro _
      unfold OrderView.fire
      rw [hResting]
      rfl
  · have hNothing : due = [] := by
      rw [List.filter_cons_of_neg (by simpa using hLast)] at hDue
      exact List.perm_nil.mp hDue
    subst hNothing
    apply Course.waiting
    · exact hNow
    · unfold OrderView.fire
      rw [hResting]
      rfl
    · unfold OrderView.fire
      rw [hTimers]
      simpa using hLast
    · exact hUnasked
    · unfold fillsWithin at hNone ⊢
      rw [hFills, hResting]
      simpa using hNone

/-
  Whatever happens, a submission keeps its course, if the
  order is not submitted again before its time is over.
-/
theorem Course.move
    {start last : Nat}
    {fill : Fill}
    {since : List (Nat × Envelope TradingMessage)}
    (hCourse : Course id start last fill since view)
    (hStart : start ≤ last)
    (hMove : ViewMove settings id view moment next)
    (hApart :
      ∀ taking ∈ moment.taking? view.now,
        submissionOf? id taking.2 ≠ none → last < taking.1) :
    Course id start last fill
      (since ++ (moment.taking? view.now).toList) next := by
  cases hCourse with
  | waiting hNow hResting hTimers hUnasked hNone =>
      cases hMove with
      | kept envelope hSubmission hCancel =>
          refine .waiting hNow hResting hTimers ?_ hNone
          intro taking hTaking
          rcases List.mem_append.mp hTaking with hOld | hNew
          · exact hUnasked taking hOld
          · cases List.mem_singleton.mp hNew
            rw [hResting] at hCancel
            simpa using hCancel
      | accepted envelope command name hSubmission =>
          have hLater : last < view.now :=
            hApart _ rfl (by simp [hSubmission])
          exact absurd hNow (Nat.not_le.mpr hLater)
      | cancelled envelope hSubmission hCancel =>
          refine
            .cancelled since [] view.now envelope rfl hUnasked
              hCancel hNow (by simp) ?_ fun _ => rfl
          rw [← hNone]
          exact fillsWithin_of_told_singleton rfl rfl
      | stayed =>
          rw [Moment.taking?, Option.toList_none, List.append_nil]
          exact .waiting hNow hResting hTimers hUnasked hNone
      | waited ms hAhead =>
          rw [Moment.taking?, Option.toList_none, List.append_nil]
          refine .waiting ?_ hResting hTimers hUnasked hNone
          exact hAhead (last, fill) (by simp [hTimers])
      | fired due hDue =>
          rw [Moment.taking?, Option.toList_none, List.append_nil]
          exact
            Course.fire hStart hNow hResting hTimers hUnasked
              hNone hDue
  | cancelled before later time cancel hSince hUnasked hCancel
      hTime hTold hNone hGone =>
      rcases gone_of_move hMove hGone hApart with
        ⟨hGone', hSame⟩
      refine
        .cancelled before
          (later ++ (moment.taking? view.now).toList) time cancel
          ?_ hUnasked hCancel hTime
          ((told_prefix_of_move hMove).subset hTold)
          (hSame.trans hNone) hGone'
      rw [hSince, List.append_assoc, List.cons_append]
  | filled hNow hLate hFilled hGone =>
      rcases gone_of_move hMove hGone hApart with
        ⟨hGone', hSame⟩
      refine
        .filled (Nat.le_trans hNow (now_le_of_move hMove)) ?_
          (hSame.trans hFilled) hGone'
      intro taking hTaking hCancel
      rcases List.mem_append.mp hTaking with hOld | hNew
      · exact hLate taking hOld hCancel
      · rw [Moment.time_of_taking hNew]
        exact hNow

/-
  When a submission is accepted that stands apart from those
  before it, no other timer of the order is set, and nothing
  of the order has been filled as late as now.
-/
theorem IsTimely.quiet
    (hTimely : view.IsTimely settings id taken)
    (hApart : StandsApart settings id view.now taken) :
    view.timers = [] ∧
      ∀ fill ∈ view.fills, fill.1 < view.now := by
  have hDues :
      ∀ due ∈ duesOf settings id taken, due.1 < view.now := by
    intro due hDue
    rcases exists_of_mem_duesOf hDue with
      ⟨taking, hTaking, hSubmission, hTime⟩
    rcases hApart taking hTaking hSubmission with
      hBefore | hAfter
    · rw [hTime]
      exact hBefore
    · have hPast := hTimely.taken_le taking hTaking
      omega
  have hBooked := hTimely.booked.subset
  constructor
  · rw [List.eq_nil_iff_forall_not_mem]
    intro timer hTimer
    have hEarly :=
      hDues timer (hBooked (List.mem_append_right _ hTimer))
    have hLate := hTimely.ahead timer hTimer
    omega
  · intro fill hFill
    exact hDues fill (hBooked (List.mem_append_left _ hFill))

end OrderView

------------------------------------------------------------
-- Venues That Keep Time
------------------------------------------------------------

namespace VenueSession

open OrderView

variable {settings : PaperSettings}
variable {session : VenueSession}
variable {taken : List (Nat × Envelope TradingMessage)}

theorem timely_live
    (id : OrderId)
    (hRuns : session.Runs settings)
    (hTimely : (session.view id).IsTimely settings id taken)
    (moments : List Moment) :
    (session.live moments).Runs settings ∧
      ((session.live moments).view id).IsTimely settings id
        (taken ++ session.takings moments) := by
  apply live_induction
    (fun taken session =>
      session.Runs settings ∧
        (session.view id).IsTimely settings id taken)
  · rintro taken session moment ⟨hRuns, hTimely⟩
    exact
      ⟨hRuns.happen moment,
        hTimely.move (viewMove hRuns moment id)⟩
  · exact ⟨hRuns, hTimely⟩

theorem timely_new
    (settings : PaperSettings)
    (stamps : Stamps)
    (id : OrderId) :
    ((new (PaperVenue.new settings true) stamps).view
      id).IsTimely settings id [] where
  taken_le := by simp
  ahead := by
    intro timer hTimer
    cases hTimer
  booked := List.Subperm.refl _

theorem now_le_of_mem_takings
    {moments : List Moment}
    {taking : Nat × Envelope TradingMessage}
    (hRuns : session.Runs settings)
    (hTaking : taking ∈ session.takings moments) :
    session.now ≤ taking.1 := by
  induction moments generalizing session with
  | nil => cases hTaking
  | cons moment moments ih =>
      rcases List.mem_append.mp hTaking with hNow | hLater
      · exact Nat.le_of_eq (Moment.time_of_taking hNow).symm
      · have hMove :
            session.now ≤ (session.happen moment).now :=
          now_le_of_move
            (viewMove hRuns moment taking.2.payload.orderId)
        exact Nat.le_trans hMove (ih (hRuns.happen moment) hLater)

theorem told_prefix_live
    (hRuns : session.Runs settings)
    (moments : List Moment)
    (id : OrderId) :
    (session.view id).told <+:
      ((session.live moments).view id).told := by
  induction moments generalizing session with
  | nil => exact List.prefix_refl _
  | cons moment moments ih =>
      exact
        (told_prefix_of_move (viewMove hRuns moment id)).trans
          (ih (hRuns.happen moment))

theorem course_live
    {id : OrderId}
    {start last : Nat}
    {fill : Fill}
    {since : List (Nat × Envelope TradingMessage)}
    {moments : List Moment}
    (hRuns : session.Runs settings)
    (hCourse : Course id start last fill since (session.view id))
    (hStart : start ≤ last)
    (hApart :
      ∀ taking ∈ session.takings moments,
        submissionOf? id taking.2 ≠ none → last < taking.1) :
    Course id start last fill (since ++ session.takings moments)
      ((session.live moments).view id) := by
  induction moments generalizing session since with
  | nil =>
      rw [takings, List.append_nil]
      exact hCourse
  | cons moment moments ih =>
      have hMove := viewMove hRuns moment id
      have hNow :
          ∀ taking ∈ moment.taking? session.now,
            submissionOf? id taking.2 ≠ none →
              last < taking.1 := fun taking hTaking =>
        hApart taking
          (List.mem_append_left _ (Option.mem_toList.mpr hTaking))
      have hRest :=
        ih (hRuns.happen moment) (hCourse.move hStart hMove hNow)
          fun taking hTaking =>
            hApart taking (List.mem_append_right _ hTaking)
      rw [List.append_assoc] at hRest
      exact hRest

/-
  A submission that stands apart from those before it is
  accepted, and waits from then on.
-/
theorem course_deliver
    {envelope : Envelope TradingMessage}
    {command : SubmitOrder}
    (hRuns : session.Runs settings)
    (hTimely :
      (session.view command.orderId).IsTimely settings
        command.orderId taken)
    (hPayload : envelope.payload = .submitOrder command)
    (hApart :
      StandsApart settings command.orderId session.now taken) :
    (∃ venueOrderId,
        (session.now, ⟨command.orderId, .accepted venueOrderId⟩) ∈
          ((session.deliver envelope).view command.orderId).told) ∧
      Course command.orderId session.now
        (session.now + settings.fillLatencyMs)
        ⟨command.quantity,
          command.price.getD settings.referencePrice⟩
        [] ((session.deliver envelope).view command.orderId) := by
  rcases hTimely.quiet hApart with ⟨hTimers, hFills⟩
  have hCommand :
      submissionOf? command.orderId envelope = some command := by
    simp [submissionOf?, hPayload]
  have hMove :=
    viewMove_deliver hRuns envelope command.orderId
  generalize
    (session.deliver envelope).view command.orderId = next
    at hMove ⊢
  cases hMove with
  | kept _ hSubmission =>
      rw [hCommand] at hSubmission
      cases hSubmission
  | cancelled _ hSubmission =>
      rw [hCommand] at hSubmission
      cases hSubmission
  | accepted _ other venueOrderId hSubmission =>
      rw [hCommand] at hSubmission
      cases hSubmission
      refine ⟨⟨venueOrderId, ?_⟩, .waiting ?_ rfl ?_ ?_ ?_⟩
      · exact List.mem_append_right _ (List.mem_singleton_self _)
      · exact Nat.le_add_right _ _
      · rw [hTimers]
        rfl
      · intro taking hTaking
        cases hTaking
      · unfold fillsWithin
        rw [fills_of_told_singleton rfl rfl,
          List.filter_eq_nil_iff]
        intro fill hFill
        have hEarly : fill.1 < session.now := hFills fill hFill
        simp
        omega

/-
  A venue keeps time. The fills of an order that it reports
  are among those that are due to the submissions of the
  order, each at its time and none twice. And a submission
  that stands apart from the others of its order is accepted
  and keeps its course: it is filled in time, or cancelled
  before.
-/
structure KeepsTime
    (settings : PaperSettings)
    (start : VenueSession) : Prop where
  booked :
    ∀ (moments : List Moment) (id : OrderId),
      ((start.live moments).view id).fills.Subperm
        (duesOf settings id (start.takings moments))
  course :
    ∀ (before after : List Moment)
      (envelope : Envelope TradingMessage)
      (command : SubmitOrder),
      envelope.payload = .submitOrder command →
        let session := start.live before
        let accepted := session.happen (.message envelope)
        StandsApart settings command.orderId session.now
            (start.takings before ++ accepted.takings after) →
          (∃ venueOrderId,
              (session.now,
                  ⟨command.orderId, .accepted venueOrderId⟩) ∈
                ((accepted.live after).view
                  command.orderId).told) ∧
            Course command.orderId session.now
              (session.now + settings.fillLatencyMs)
              ⟨command.quantity,
                command.price.getD settings.referencePrice⟩
              (accepted.takings after)
              ((accepted.live after).view command.orderId)

/- A venue that reports to somebody keeps time. -/
theorem keepsTime_new
    (settings : PaperSettings)
    (stamps : Stamps) :
    (new (PaperVenue.new settings true) stamps).KeepsTime
      settings where
  booked := by
    intro moments id
    have hTimely :=
      (timely_live id (runs_new settings stamps)
        (timely_new settings stamps id) moments).2
    exact
      (List.sublist_append_left _ _).subperm.trans hTimely.booked
  course := by
    intro before after envelope command hPayload session accepted
      hApart
    rcases timely_live command.orderId (runs_new settings stamps)
        (timely_new settings stamps command.orderId) before with
      ⟨hRuns, hTimely⟩
    rcases course_deliver hRuns hTimely hPayload fun taking hTaking =>
        hApart taking (List.mem_append_left _ hTaking) with
      ⟨⟨venueOrderId, hAccepted⟩, hCourse⟩
    have hNext := hRuns.happen (.message envelope)
    refine
      ⟨⟨venueOrderId,
        (told_prefix_live hNext after _).subset hAccepted⟩, ?_⟩
    apply course_live hNext hCourse (Nat.le_add_right _ _)
    intro taking hTaking hSubmission
    have hLater :
        session.now ≤ taking.1 :=
      Nat.le_trans
        (now_le_of_move
          (viewMove hRuns (.message envelope) command.orderId))
        (now_le_of_mem_takings hNext hTaking)
    rcases hApart taking (List.mem_append_right _ hTaking)
        hSubmission with
      hBefore | hAfter
    · omega
    · exact hAfter

------------------------------------------------------------
-- Timers That Outlive Their Orders
------------------------------------------------------------

/- A venue that fills orders after a tenth of a second. -/
def promptVenue : PaperSettings where
  fillLatencyMs := 100
  referencePrice := Decimal.ofNat 100 Decimal.hundred_lt_twoTo

/- Orders of one identifier, to buy for a price. -/
def bidFor
    (quantity price : Decimal) : SubmitOrder where
  orderId := OrderId.ofNat 1
  symbol := Symbol.ofText "btc"
  side := .buy
  orderType := .limit
  quantity := quantity
  price := some price

/- One unit for fifty. -/
def oneForFifty : SubmitOrder :=
  bidFor (Decimal.ofNat 1 Decimal.one_lt_twoTo)
    (Decimal.ofNat 50)

/- Two units for sixty each. -/
def twoForSixty : SubmitOrder :=
  bidFor (Decimal.ofNat 2 Decimal.two_lt_twoTo)
    (Decimal.ofNat 60)

/- A command at some time. -/
def commanded
    (payload : TradingMessage) : Moment :=
  .message (Envelope.command ⟨Uuid.ofNat 1, ⟨1, 0⟩⟩ payload)

/-
  One unit is asked for and cancelled, and two units are
  asked for under the same identifier before the timer of
  the first order fires.
-/
def resubmitted : List Moment :=
  [commanded (.submitOrder oneForFifty), .wait 10,
    commanded (.cancelOrder ⟨OrderId.ofNat 1⟩), .wait 10,
    commanded (.submitOrder twoForSixty), .wait 80, .fire,
    .wait 20, .fire]

/-
  The first order was cancelled, and the second one never.
  Still the timer of the first fills the second, too early
  and by the terms of the first, and when its own timer
  fires nothing is left to be filled.
-/
theorem stale_timer_fills_successor :
    let start :=
      new (PaperVenue.new promptVenue true) ⟨⟨0, 0⟩, 1⟩
    let view := (start.live resubmitted).view (OrderId.ofNat 1)
    duesOf promptVenue (OrderId.ofNat 1)
          (start.takings resubmitted) =
        [(100, ⟨Decimal.ofNat 1, Decimal.ofNat 50⟩),
          (120, ⟨Decimal.ofNat 2, Decimal.ofNat 60⟩)] ∧
      view.now = 120 ∧
        view.isResting = false ∧
          view.told.map (fun report => (report.1, report.2.kind)) =
              [(0, .accepted), (10, .cancelled), (20, .accepted),
                (100, .filled)] ∧
            view.fills =
              [(100, ⟨Decimal.ofNat 1, Decimal.ofNat 50⟩)] := by
  decide +kernel

/-
  The same orders, but the second is asked for when the
  timer of the first has fired. Each keeps its course.
-/
example :
    let start :=
      new (PaperVenue.new promptVenue true) ⟨⟨0, 0⟩, 1⟩
    let view :=
      (start.live
        [commanded (.submitOrder oneForFifty), .wait 10,
          commanded (.cancelOrder ⟨OrderId.ofNat 1⟩), .wait 90,
          .fire, .wait 10, commanded (.submitOrder twoForSixty),
          .wait 100, .fire]).view (OrderId.ofNat 1)
    view.fills =
      [(210, ⟨Decimal.ofNat 2, Decimal.ofNat 60⟩)] := by
  decide +kernel

------------------------------------------------------------
-- From Deadline To Deadline
------------------------------------------------------------

/- No timer is due. -/
def IsSettled
    (session : VenueSession) : Prop :=
  ∀ timer ∈ session.timers.pending, session.now < timer.deadline

/- Fills take no time and set no timer. -/
theorem settleAll_eq
    (fills : List PendingFill)
    (session : VenueSession) :
    (fills.foldl settle session).now = session.now ∧
      (fills.foldl settle session).timers = session.timers := by
  induction fills generalizing session with
  | nil => exact ⟨rfl, rfl⟩
  | cons fill fills ih =>
      have hOne :
          (session.settle fill).now = session.now ∧
            (session.settle fill).timers = session.timers := by
        unfold settle PaperVenue.settle
        dsimp only
        split <;> exact ⟨rfl, rfl⟩
      rcases ih (session.settle fill) with ⟨hNow, hTimers⟩
      exact ⟨hNow.trans hOne.1, hTimers.trans hOne.2⟩

theorem now_wake
    (session : VenueSession)
    (now : Nat) :
    (session.wake now).now = now := by
  unfold wake
  exact (settleAll_eq _ _).1

/- A session is settled when its timers have fired. -/
theorem isSettled_wake
    (hRuns : session.Runs settings)
    (now : Nat) :
    (session.wake now).IsSettled := by
  intro timer hTimer
  rw [now_wake]
  unfold wake at hTimer
  rw [fire_of_once now hRuns.once] at hTimer
  dsimp only at hTimer
  rw [(settleAll_eq _ _).2] at hTimer
  have hNotDue := (List.mem_filter.mp hTimer).2
  simpa [Timer.isDue] using hNotDue

/-
  Sending messages is one of the things that can happen: the
  venue takes all of them, and timers that are due by then
  fire.
-/
theorem exists_live_eq_send
    (hRuns : session.Runs settings)
    (envelopes : List (Envelope TradingMessage)) :
    (session.send envelopes).IsSettled ∧
      session.live (envelopes.map .message ++ [.fire]) =
        session.send envelopes := by
  have hDelivered :
      ∀ session : VenueSession,
        session.Runs settings →
          (envelopes.foldl deliver session).Runs settings ∧
            (envelopes.foldl deliver session).now =
                session.now ∧
              session.live (envelopes.map .message) =
                envelopes.foldl deliver session := by
    induction envelopes with
    | nil => exact fun session hRuns => ⟨hRuns, rfl, rfl⟩
    | cons envelope envelopes ih =>
        intro session hRuns
        rcases ih _ (hRuns.deliver envelope) with
          ⟨hLast, hNow, hLive⟩
        have hSame :
            (session.deliver envelope).now = session.now := by
          unfold deliver
          dsimp only
          split <;> rfl
        exact ⟨hLast, hNow.trans hSame, hLive⟩
  rcases hDelivered session hRuns with ⟨hLast, hNow, hLive⟩
  unfold send
  rw [live_append, hLive, ← hNow]
  exact ⟨isSettled_wake hLast _, rfl⟩

theorem wait_of_le
    {time : Nat}
    (hTime : session.now ≤ time)
    (hWithin :
      ∀ deadline ∈ session.timers.deadline?, time ≤ deadline) :
    session.wait (time - session.now) =
      { session with now := time } := by
  unfold wait
  rw [Nat.add_sub_cancel' hTime, if_pos hWithin]

/- If all deadlines are later, nothing happens but time passes. -/
theorem live_wait_of_lt
    {time : Nat}
    (hTime : session.now ≤ time)
    (hWithin :
      ∀ deadline ∈ session.timers.deadline?, time < deadline) :
    session.live [.wait (time - session.now)] =
        { session with now := time } ∧
      { session with now := time }.IsSettled := by
  constructor
  · exact
      wait_of_le hTime fun deadline hDeadline =>
        Nat.le_of_lt (hWithin deadline hDeadline)
  · exact lt_deadline?_iff.mp hWithin

/-
  Letting an amount of time pass in one go, when no timer is
  due, is one of the things that can happen: timers fire at
  each deadline.
-/
theorem exists_live_eq_advance
    (hRuns : session.Runs settings)
    (hSettled : session.IsSettled)
    (ms : Nat) :
    ∃ moments,
      session.live moments = session.advance ms ∧
        (session.advance ms).IsSettled := by
  refine
    Timed.advance_induction
      (fun now (next : VenueSession) =>
        next.now = now ∧ next.Runs settings ∧ next.IsSettled ∧
          ∃ moments, session.live moments = next)
      (fun last : VenueSession =>
        ∃ moments,
          session.live moments =
              { last with now := session.now + ms } ∧
            IsSettled { last with now := session.now + ms })
      ?_ ?_ (Nat.le_add_right _ ms) ⟨rfl, hRuns, hSettled, [], rfl⟩
  · rintro _ next deadline ⟨rfl, hNext, _, moments, rfl⟩ hLater
      hDeadline
    refine
      ⟨now_wake _ deadline, hNext.wake deadline,
        isSettled_wake hNext deadline, ?_⟩
    have hWait := wait_of_le (Nat.le_of_lt hLater)
      fun other hOther =>
        Nat.le_of_eq (Option.some.inj (hDeadline.symm.trans hOther))
    refine
      ⟨moments ++
        [.wait (deadline - (session.live moments).now), .fire], ?_⟩
    rw [live_append]
    change
      ((session.live moments).wait
          (deadline - (session.live moments).now)).happen .fire = _
    rw [hWait]
    rfl
  · rintro _ next ⟨rfl, _, hAhead, moments, rfl⟩ hLater hRest
    rcases live_wait_of_lt hLater fun deadline hDeadline =>
        hRest deadline hDeadline
          (lt_deadline?_iff.mpr hAhead deadline hDeadline) with
      ⟨hLive, hLast⟩
    exact ⟨moments ++ _, (live_append _ _ _).trans hLive, hLast⟩

end VenueSession

end OrderDesk
