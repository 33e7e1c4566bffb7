import OrderDesk.Proofs.Timer.Tracking

/-
  This file proves that timers fire on time and that their
  handles decide until when. Whatever is done with a board
  in the course of time, all that fires is what each timer
  is to fire by itself: after its delay, or after each of its
  intervals, for as long as its handle was not let go of.

  Key definitions include:
    * `TimerBoard.IsChronological`
    * `TimerBoard.FiresOnTime`

  Key theorems include:
    * `TimerRecord.firings_of_once`
    * `TimerRecord.mem_firings_of_recurs`
    * `TimerBoard.timesOf_perm`
    * `TimerBoard.timesOf_congr`
    * `TimerBoard.timesOf_once`
    * `TimerBoard.timesOf_periodic`
    * `TimerBoard.firesOnTime_live`
-/

namespace OrderDesk

variable {N : Type}

------------------------------------------------------------
-- When A Timer Is To Fire
------------------------------------------------------------

/- A timer runs until now as long as it is not taken back before. -/
theorem Custody.le_horizon_iff
    {custody : Custody}
    {now : Nat}
    (hPast : ∀ last, custody = .ended last → last ≤ now)
    (deadline : Nat) :
    deadline ≤ custody.horizon now ↔
      deadline ≤ now ∧ custody.Spares deadline := by
  cases custody with
  | held | detached => simp [horizon, Spares]
  | ended last =>
      have hLast := hPast last rfl
      simp only [horizon, Spares]
      omega

namespace TimerRecord

variable {record : TimerRecord N}
variable {now : Nat}

/-
  A timer without intervals fires once at most, after its
  delay, and it does unless it was taken back before.
-/
theorem firings_of_once
    (hPast : ∀ last, record.custody = .ended last → last ≤ now)
    (hOnce : record.recurs = false) :
    record.firings now =
      if record.since + record.span ≤ now ∧
          record.custody.Spares (record.since + record.span) then
        [record.since + record.span]
      else
        [] := by
  rw [firings, deadlinesBy_of_once hOnce]
  simp only [Custody.le_horizon_iff hPast]

/-
  A periodic timer fires after each of its intervals until
  it is taken back.
-/
theorem mem_firings_of_recurs
    (hPast : ∀ last, record.custody = .ended last → last ≤ now)
    (hRecurs : record.recurs = true)
    {time : Nat} :
    time ∈ record.firings now ↔
      0 < record.span ∧
        (∃ k, 1 ≤ k ∧ time = record.since + k * record.span) ∧
          time ≤ now ∧ record.custody.Spares time := by
  rw [firings, mem_deadlinesBy_of_recurs hRecurs,
    Custody.le_horizon_iff hPast]

end TimerRecord

------------------------------------------------------------
-- Timers Under A Name
------------------------------------------------------------

section Names

variable [DecidableEq N]
variable {name : N}

/- What an act sets under a name has to do with that name alone. -/
theorem filter_record_congr
    (act : TimerAct N)
    {now : Nat}
    {first second : List (TimerAct N)}
    (hSame :
      Custody.held.through name now first =
        Custody.held.through name now second) :
    (act.record? now first).toList.filter (·.name = name) =
      (act.record? now second).toList.filter (·.name = name) := by
  cases act with
  | once other _ | periodic other _ =>
      by_cases hName : other = name
      · subst hName
        simp only [TimerAct.record?, hSame]
      · simp [TimerAct.record?, hName]
  | cancel other | drop other | detach other | pass ms => rfl

theorem filter_record_of_not_set
    {act : TimerAct N}
    (hAct : act.setName? ≠ some name)
    (now : Nat)
    (later : List (TimerAct N)) :
    (act.record? now later).toList.filter (·.name = name) = [] := by
  cases act with
  | once other _ | periodic other _ =>
      have hName : other ≠ name :=
        fun hName => hAct (congrArg some hName)
      simp [TimerAct.record?, hName]
  | cancel other | drop other | detach other | pass ms => rfl

/- Acts that set no timer under a name can be passed over. -/
theorem filter_timersSet_append
    {first : List (TimerAct N)}
    (hFirst : ∀ act ∈ first, act.setName? ≠ some name)
    (now : Nat)
    (second : List (TimerAct N)) :
    (timersSet now (first ++ second)).filter (·.name = name) =
      (timersSet (now + elapsed first) second).filter
        (·.name = name) := by
  induction first generalizing now with
  | nil => rfl
  | cons act rest ih =>
      rw [List.forall_mem_cons] at hFirst
      rw [List.cons_append, timersSet, List.filter_append,
        filter_record_of_not_set hFirst.1, ih hFirst.2, elapsed,
        Nat.add_assoc]
      rfl

/- Where nothing is set under a name, no timer has it. -/
theorem filter_timersSet_of_not_set
    {acts : List (TimerAct N)}
    (hActs : ∀ act ∈ acts, act.setName? ≠ some name)
    (now : Nat) :
    (timersSet now acts).filter (·.name = name) = [] := by
  have hAll := filter_timersSet_append hActs now []
  rw [List.append_nil] at hAll
  exact hAll

/- A timer that is alone under its name is the only one to find. -/
theorem filter_timersSet_of_alone
    {before later : List (TimerAct N)}
    (hAlone : ∀ act ∈ before ++ later, act.setName? ≠ some name)
    (act : TimerAct N)
    (now : Nat) :
    (timersSet now (before ++ act :: later)).filter (·.name = name) =
      (act.record? (now + elapsed before) later).toList.filter
        (·.name = name) := by
  rw [List.forall_mem_append] at hAlone
  rw [filter_timersSet_append hAlone.1, timersSet,
    List.filter_append, filter_timersSet_of_not_set hAlone.2,
    List.append_nil]

/-
  The timers under a name do not tell one end of the acts
  from another that does the same to their handles and sets
  the same timers under the name.
-/
theorem filter_timersSet_congr
    {first second : List (TimerAct N)}
    (hThrough :
      ∀ now (custody : Custody),
        custody.through name now first =
          custody.through name now second)
    (hSet :
      ∀ now,
        (timersSet now first).filter (·.name = name) =
          (timersSet now second).filter (·.name = name))
    (before : List (TimerAct N))
    (now : Nat) :
    (timersSet now (before ++ first)).filter (·.name = name) =
      (timersSet now (before ++ second)).filter (·.name = name) := by
  induction before generalizing now with
  | nil => exact hSet now
  | cons act rest ih =>
      rw [List.cons_append, List.cons_append, timersSet, timersSet,
        List.filter_append, List.filter_append, ih]
      congr 1
      apply filter_record_congr
      rw [Custody.through_append, Custody.through_append, hThrough]

/- What does not concern a name can be left out. -/
theorem filter_timersSet_filter
    (acts : List (TimerAct N))
    (now : Nat) :
    (timersSet now (acts.filter (·.concerns name))).filter
        (·.name = name) =
      (timersSet now acts).filter (·.name = name) := by
  induction acts generalizing now with
  | nil => rfl
  | cons act rest ih =>
      cases hConcerns : act.concerns name with
      | true =>
          rw [List.filter_cons_of_pos hConcerns, timersSet, timersSet,
            List.filter_append, List.filter_append, ih]
          congr 1
          exact
            filter_record_congr act (Custody.through_filter _ _ _ _)
      | false =>
          have hNotSet : act.setName? ≠ some name := by
            intro hSet
            cases act with
            | once other _ | periodic other _ =>
                cases hSet
                simp [TimerAct.concerns, TimerAct.name?] at hConcerns
            | cancel other | drop other | detach other | pass ms =>
                cases hSet
          rw [List.filter_cons_of_neg (by simp [hConcerns]), ih,
            timersSet, List.filter_append,
            filter_record_of_not_set hNotSet,
            Custody.duration_of_not_concerns hConcerns, Nat.add_zero]
          rfl

theorem elapsed_filter
    (name : N)
    (acts : List (TimerAct N)) :
    elapsed (acts.filter (·.concerns name)) = elapsed acts := by
  induction acts with
  | nil => rfl
  | cons act rest ih =>
      cases hConcerns : act.concerns name with
      | true =>
          rw [List.filter_cons_of_pos hConcerns, elapsed, elapsed, ih]
      | false =>
          rw [List.filter_cons_of_neg (by simp [hConcerns]), ih,
            elapsed, Custody.duration_of_not_concerns hConcerns,
            Nat.zero_add]

/- No timer is taken back later than now. -/
theorem time_le_of_mem_timersSet
    {acts : List (TimerAct N)}
    {now last : Nat}
    {record : TimerRecord N}
    (hRecord : record ∈ timersSet now acts)
    (hEnded : record.custody = .ended last) :
    last ≤ now + elapsed acts := by
  induction acts generalizing now with
  | nil => cases hRecord
  | cons act rest ih =>
      rw [elapsed, ← Nat.add_assoc]
      rcases List.mem_append.mp hRecord with hNew | hLater
      · cases act with
        | once other _ | periodic other _ =>
            cases Option.mem_toList.mp hNew
            exact
              Custody.time_le_of_through
                (fun _ hHeld => by cases hHeld) hEnded
        | cancel other | drop other | detach other | pass ms =>
            cases hNew
      · exact ih hLater

end Names

------------------------------------------------------------
-- What Fires In Order
------------------------------------------------------------

namespace TimerBoard

variable {board : TimerBoard N}

/- What has fired has done so in order of time, until now. -/
structure IsChronological
    (board : TimerBoard N) : Prop where
  inOrder : (board.fired.map (·.2)).Pairwise (· ≤ ·)
  past : ∀ firing ∈ board.fired, firing.2 ≤ board.now

theorem IsChronological.wake
    (hOrder : board.IsChronological)
    {later : Nat}
    (hLater : board.now ≤ later) :
    (board.wake later).IsChronological := by
  have hPast : ∀ firing ∈ board.fired, firing.2 ≤ later :=
    fun firing hFiring =>
      Nat.le_trans (hOrder.past firing hFiring) hLater
  constructor
  · change ((board.fired ++ _).map _).Pairwise _
    rw [List.map_append, List.pairwise_append]
    refine ⟨hOrder.inOrder, ?_, ?_⟩
    · rw [List.map_map, List.pairwise_map]
      exact List.pairwise_of_forall fun _ _ => Nat.le_refl later
    · intro time hTime now hNow
      rcases List.mem_map.mp hTime with ⟨firing, hFiring, rfl⟩
      simp only [List.map_map, List.mem_map] at hNow
      rcases hNow with ⟨name, _, rfl⟩
      exact hPast firing hFiring
  · intro firing hFiring
    rcases List.mem_append.mp hFiring with hOld | hNew
    · exact hPast firing hOld
    · rcases List.mem_map.mp hNew with ⟨name, _, rfl⟩
      exact Nat.le_refl later

theorem IsChronological.advance
    (hOrder : board.IsChronological)
    (ms : Nat) :
    (board.advance ms).IsChronological := by
  refine
    Timed.advance_induction
      (fun now (board : TimerBoard N) =>
        board.now = now ∧ board.IsChronological)
      (fun later : TimerBoard N =>
        IsChronological { later with now := board.now + ms })
      ?_ ?_ (Nat.le_add_right _ ms) ⟨rfl, hOrder⟩
  · rintro _ board deadline ⟨rfl, hOrder⟩ hLater _
    exact ⟨rfl, hOrder.wake (Nat.le_of_lt hLater)⟩
  · rintro _ board ⟨rfl, hOrder⟩ hLater _
    refine ⟨hOrder.inOrder, fun firing hFiring => ?_⟩
    exact Nat.le_trans (hOrder.past firing hFiring) hLater

variable [DecidableEq N]

theorem IsChronological.spend
    (hOrder : board.IsChronological)
    (how : TimerHandle → Timers N → Timers N)
    (name : N) :
    (board.spend how name).IsChronological where
  inOrder := by
    rw [fired_spend]
    exact hOrder.inOrder
  past := by
    rw [fired_spend, now_spend]
    exact hOrder.past

theorem IsChronological.act
    (hOrder : board.IsChronological)
    (act : TimerAct N) :
    (board.act act).IsChronological := by
  have hHold :
      ∀ name set, (board.hold name set).IsChronological := by
    intro name set
    refine ⟨?_, ?_⟩
    · rw [fired_hold]
      exact hOrder.inOrder
    · rw [fired_hold, now_hold]
      exact hOrder.past
  cases act with
  | once name delay =>
      exact (hHold name _).wake (Nat.le_of_eq (now_hold name _ board))
  | periodic name interval =>
      exact hHold name (Timers.periodic board.now interval name)
  | cancel name => exact hOrder.spend TimerHandle.cancel name
  | drop name => exact hOrder.spend TimerHandle.drop name
  | detach name => exact hOrder.spend TimerHandle.detach name
  | pass ms => exact hOrder.advance ms

/- Over any course of acts, what fires comes in order of time. -/
theorem isChronological_live
    (acts : List (TimerAct N)) :
    ((empty : TimerBoard N).live acts).IsChronological := by
  induction acts using List.reverseRecOn with
  | nil => exact ⟨.nil, fun _ hFiring => by cases hFiring⟩
  | append_singleton acts last ih =>
      rw [live_concat]
      exact ih.act last

------------------------------------------------------------
-- Timers On Time
------------------------------------------------------------

/- All that fires is what the timers fire by themselves. -/
theorem fired_perm
    (acts : List (TimerAct N)) :
    ((empty : TimerBoard N).live acts).fired.Perm
      ((timersSet 0 acts).flatMap fun record =>
        (record.firings (elapsed acts)).map fun time =>
          (record.name, time)) := by
  rcases tracks_live acts with ⟨hTracks, hNow⟩
  refine hTracks.addsUp.fired.trans (.of_eq ?_)
  -- what a timer has told does not depend on its number
  have hTold :
      (accountsOf (elapsed acts) (timersSet 0 acts)).map (·.told) =
        (timersSet 0 acts).map fun record =>
          (record.firings (elapsed acts)).map fun time =>
            (record.name, time) := by
    refine List.ext_getElem? fun id => ?_
    rw [accountsOf, List.getElem?_map, List.getElem?_mapIdx,
      List.getElem?_map]
    cases (timersSet 0 acts)[id]? <;> rfl
  rw [hNow, List.flatMap_def, List.flatMap_def, hTold]

/- What fires under a name is what the timers under it fire. -/
theorem timesOf_perm
    (name : N)
    (acts : List (TimerAct N)) :
    (((empty : TimerBoard N).live acts).timesOf name).Perm
      (((timersSet 0 acts).filter (·.name = name)).flatMap
        (·.firings (elapsed acts))) := by
  have hTimes :=
    ((fired_perm acts).filter (·.1 = name)).map (·.2)
  refine hTimes.trans (.of_eq ?_)
  induction timersSet 0 acts with
  | nil => rfl
  | cons record rest ih =>
      rw [List.flatMap_cons, List.filter_append, List.map_append, ih]
      by_cases hName : record.name = name
      · rw [List.filter_cons_of_pos (by simpa using hName),
          List.flatMap_cons]
        congr 1
        rw [List.filter_map, List.map_map]
        simp [Function.comp_def, hName]
      · rw [List.filter_cons_of_neg (by simpa using hName)]
        simp [List.filter_map, hName]

theorem pairwise_timesOf
    (name : N)
    (acts : List (TimerAct N)) :
    (((empty : TimerBoard N).live acts).timesOf name).Pairwise
      (· ≤ ·) :=
  (isChronological_live acts).inOrder.sublist
    (List.filter_sublist.map _)

/-
  Two courses of acts in which the timers under a name are to
  fire at the same times make them fire at the same times.
-/
theorem timesOf_congr
    {first second : List (TimerAct N)}
    {name : N}
    (hSet :
      (timersSet 0 first).filter (·.name = name) =
        (timersSet 0 second).filter (·.name = name))
    (hElapsed : elapsed first = elapsed second) :
    ((empty : TimerBoard N).live first).timesOf name =
      ((empty : TimerBoard N).live second).timesOf name := by
  have hPerm := timesOf_perm name first
  rw [hSet, hElapsed] at hPerm
  exact
    (hPerm.trans (timesOf_perm name second).symm).eq_of_pairwise
      (fun _ _ _ _ => Nat.le_antisymm)
      (pairwise_timesOf name first) (pairwise_timesOf name second)

/- A timer that is alone under its name fires as it is to. -/
theorem timesOf_of_alone
    {acts : List (TimerAct N)}
    {record : TimerRecord N}
    {name : N}
    (hAlone :
      (timersSet 0 acts).filter (·.name = name) = [record]) :
    ((empty : TimerBoard N).live acts).timesOf name =
      record.firings (elapsed acts) := by
  have hPerm := timesOf_perm name acts
  rw [hAlone, List.flatMap_singleton] at hPerm
  exact
    hPerm.eq_of_pairwise (fun _ _ _ _ => Nat.le_antisymm)
      (pairwise_timesOf name acts)
      ((record.pairwise_deadlinesBy _).imp Nat.le_of_lt)

/- No timer is taken back later than the acts end. -/
theorem past_of_mem
    {acts : List (TimerAct N)}
    {record : TimerRecord N}
    (hRecord : record ∈ timersSet 0 acts)
    (last : Nat)
    (hEnded : record.custody = .ended last) :
    last ≤ elapsed acts := by
  rw [← Nat.zero_add (elapsed acts)]
  exact time_le_of_mem_timersSet hRecord hEnded

/-
  A timer that fires once and is alone under its name fires
  after its delay, if that has passed and its handle was not
  let go of before.
-/
theorem timesOf_once
    {before later : List (TimerAct N)}
    {name : N}
    (hAlone : ∀ act ∈ before ++ later, act.setName? ≠ some name)
    (delay : Nat) :
    ((empty : TimerBoard N).live
        (before ++ .once name delay :: later)).timesOf name =
      if elapsed before + delay ≤
            elapsed (before ++ .once name delay :: later) ∧
          (Custody.held.through name (elapsed before) later).Spares
            (elapsed before + delay) then
        [elapsed before + delay]
      else
        [] := by
  have hOnly :
      (timersSet 0 (before ++ .once name delay :: later)).filter
          (·.name = name) =
        [⟨name, elapsed before, delay, false,
          Custody.held.through name (elapsed before) later⟩] := by
    rw [filter_timersSet_of_alone hAlone]
    simp [TimerAct.record?]
  have hRecord := List.mem_of_mem_filter (hOnly ▸ List.mem_cons_self)
  rw [timesOf_of_alone hOnly]
  exact TimerRecord.firings_of_once (past_of_mem hRecord) rfl

/-
  A periodic timer that is alone under its name fires after
  each of its intervals, as long as its handle was not let go
  of before.
-/
theorem timesOf_periodic
    {before later : List (TimerAct N)}
    {name : N}
    (hAlone : ∀ act ∈ before ++ later, act.setName? ≠ some name)
    (interval : Nat) :
    (((empty : TimerBoard N).live
        (before ++ .periodic name interval :: later)).timesOf
          name).Pairwise (· < ·) ∧
      ∀ time,
        time ∈ ((empty : TimerBoard N).live
            (before ++ .periodic name interval :: later)).timesOf
              name ↔
          0 < interval ∧
            (∃ k, 1 ≤ k ∧
              time = elapsed before + k * interval) ∧
              time ≤
                  elapsed
                    (before ++ .periodic name interval :: later) ∧
                (Custody.held.through name (elapsed before)
                  later).Spares time := by
  have hOnly :
      (timersSet 0 (before ++ .periodic name interval :: later)).filter
          (·.name = name) =
        [⟨name, elapsed before, interval, true,
          Custody.held.through name (elapsed before) later⟩] := by
    rw [filter_timersSet_of_alone hAlone]
    simp [TimerAct.record?]
  have hRecord := List.mem_of_mem_filter (hOnly ▸ List.mem_cons_self)
  rw [timesOf_of_alone hOnly]
  exact
    ⟨TimerRecord.pairwise_deadlinesBy _ _, fun _ =>
      TimerRecord.mem_firings_of_recurs (past_of_mem hRecord) rfl⟩

/-
  What is done after a timer was detached makes no difference
  to it, as long as its name is given to no other timer. It
  might as well be that only time passes.
-/
theorem timesOf_detached
    (before : List (TimerAct N))
    {name : N}
    {later : List (TimerAct N)}
    (hFree : ∀ act ∈ later, act.setName? ≠ some name) :
    ((empty : TimerBoard N).live
        (before ++ .detach name :: later)).timesOf name =
      ((empty : TimerBoard N).live
        (before ++
          [.detach name, .pass (elapsed later)])).timesOf name := by
  refine timesOf_congr (filter_timersSet_congr ?_ ?_ before 0) ?_
  · intro now custody
    have hUsed : custody.after name now (.detach name) ≠ .held := by
      rw [ne_eq, Custody.after_eq_held_iff (.detach name) rfl]
      exact fun hHeld => hHeld.2 rfl
    rw [Custody.through, Custody.through,
      Custody.through_of_ne_held hUsed,
      Custody.through_of_ne_held hUsed]
  · intro now
    rw [filter_timersSet_of_not_set, filter_timersSet_of_not_set]
    · simp [TimerAct.setName?]
    · rw [List.forall_mem_cons]
      exact ⟨by simp [TimerAct.setName?], hFree⟩
  · rw [elapsed_append, elapsed_append]
    rfl

/- What is done under other names makes no difference to a timer. -/
theorem timesOf_filter
    (name : N)
    (acts : List (TimerAct N)) :
    ((empty : TimerBoard N).live
        (acts.filter (·.concerns name))).timesOf name =
      ((empty : TimerBoard N).live acts).timesOf name :=
  timesOf_congr (filter_timersSet_filter acts 0)
    (elapsed_filter name acts)

/-
  What timers do in the course of acts.

  All that fires is what the timers that were set fire by
  themselves, in order of time. Timers are told apart by
  their names, as far as they do not share one: a timer under
  a name of its own fires after its delay, or after each of
  its intervals, and no deadline is left out but those that
  come after its handle was let go of, that is, cancelled, or
  dropped and not detached before. A timer that was detached
  depends on nothing but time, and what is done under other
  names makes no difference to a timer at all.

  Time goes on only when there is nothing left to do, so that
  a delay counts from the act that sets the timer. Of a
  deadline and an act at the same time the deadline comes
  first. With no interval there is no deadline: all of them
  would be at the act that sets the timer.
-/
structure FiresOnTime
    (acts : List (TimerAct N)) : Prop where
  together :
    ((empty : TimerBoard N).live acts).fired.Perm
      ((timersSet 0 acts).flatMap fun record =>
        (record.firings (elapsed acts)).map fun time =>
          (record.name, time))
  inOrder :
    (((empty : TimerBoard N).live acts).fired.map (·.2)).Pairwise
      (· ≤ ·)
  once :
    ∀ before name delay later,
      acts = before ++ .once name delay :: later →
        (∀ act ∈ before ++ later, act.setName? ≠ some name) →
          ((empty : TimerBoard N).live acts).timesOf name =
            if elapsed before + delay ≤ elapsed acts ∧
                (Custody.held.through name (elapsed before)
                  later).Spares (elapsed before + delay) then
              [elapsed before + delay]
            else
              []
  periodic :
    ∀ before name interval later,
      acts = before ++ .periodic name interval :: later →
        (∀ act ∈ before ++ later, act.setName? ≠ some name) →
          (((empty : TimerBoard N).live acts).timesOf
              name).Pairwise (· < ·) ∧
            ∀ time,
              time ∈ ((empty : TimerBoard N).live acts).timesOf
                  name ↔
                0 < interval ∧
                  (∃ k, 1 ≤ k ∧
                    time = elapsed before + k * interval) ∧
                    time ≤ elapsed acts ∧
                      (Custody.held.through name (elapsed before)
                        later).Spares time
  detached :
    ∀ before name later,
      acts = before ++ .detach name :: later →
        (∀ act ∈ later, act.setName? ≠ some name) →
          ((empty : TimerBoard N).live acts).timesOf name =
            ((empty : TimerBoard N).live
              (before ++
                [.detach name, .pass (elapsed later)])).timesOf
                name
  apart :
    ∀ name,
      ((empty : TimerBoard N).live acts).timesOf name =
        ((empty : TimerBoard N).live
          (acts.filter (·.concerns name))).timesOf name

/- Whatever is done with timers, they fire on time. -/
theorem firesOnTime_live
    (acts : List (TimerAct N)) :
    FiresOnTime acts where
  together := fired_perm acts
  inOrder := (isChronological_live acts).inOrder
  once := by
    rintro before name delay later rfl hAlone
    exact timesOf_once hAlone delay
  periodic := by
    rintro before name interval later rfl hAlone
    exact timesOf_periodic hAlone interval
  detached := by
    rintro before name later rfl hFree
    exact timesOf_detached before hFree
  apart name := (timesOf_filter name acts).symm

/-
  A timer that is cancelled after 25 has fired twice by then,
  and one that was detached fires, whatever is done to what
  is held no more.
-/
example :
    ((empty : TimerBoard Nat).live
      [.periodic 0 10, .once 1 30, .detach 1, .pass 25, .cancel 0,
        .cancel 1, .pass 25]).fired =
      [(0, 10), (0, 20), (1, 30)] := by
  decide +kernel

end TimerBoard

end OrderDesk
