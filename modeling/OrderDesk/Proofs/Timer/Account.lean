import Mathlib.Data.List.Perm.Basic
import OrderDesk.Proofs.Timer.Custody
import OrderDesk.Proofs.Timer.Firing

/-
  This file proves that the timers on a board add up. What is
  set and what has fired is made up of one account for each
  timer, and an account is all that firing or taking back a
  timer changes.

  The account of a timer depends on when it was set, on what
  became of its handle, and on the time.

  Key definitions include:
    * `TimerAccount`
    * `TimerBoard.AddsUpTo`
    * `TimerRecord.next?`
    * `TimerRecord.account`
    * `accountsOf`

  Key theorems include:
    * `TimerBoard.AddsUpTo.wake`
    * `TimerBoard.AddsUpTo.cancel`
    * `TimerRecord.next_deadline`
    * `TimerRecord.account_wake`
    * `TimerRecord.account_of_lt`
-/

namespace OrderDesk

variable {N : Type}

------------------------------------------------------------
-- Timers That Add Up
------------------------------------------------------------

/-
  What there is to see of one timer on a board: how it is
  set, if it is, and what it has fired.
-/
structure TimerAccount (N : Type) where
  timer? : Option (Timer N)
  told : List (N × Nat)

namespace TimerAccount

/- The timer by itself when all due timers fire. -/
def wake
    (now : Nat)
    (account : TimerAccount N) : TimerAccount N where
  timer? := account.timer?.bind (·.left? now)
  told :=
    account.told ++
      account.timer?.toList.flatMap fun timer =>
        (timer.told now).map fun name => (name, now)

theorem wake_of_lt
    {now : Nat}
    {account : TimerAccount N}
    (hAhead :
      ∀ timer, account.timer? = some timer →
        now < timer.deadline) :
    account.wake now = account := by
  rcases account with ⟨timer?, told⟩
  cases timer? with
  | none => simp [wake]
  | some timer =>
      have hTimer := hAhead timer rfl
      simp [wake, Timer.left?_of_lt hTimer, Timer.told_of_lt hTimer]

/- The timer by itself when the one with a number is taken back. -/
def cancel
    (id : Nat)
    (account : TimerAccount N) : TimerAccount N :=
  { account with timer? := account.timer?.filter (·.id ≠ id) }

theorem cancel_of_eq
    {id : Nat}
    {account : TimerAccount N}
    (hId : ∀ timer, account.timer? = some timer → timer.id = id) :
    account.cancel id = { account with timer? := none } := by
  rcases account with ⟨timer?, told⟩
  cases timer? with
  | none => rfl
  | some timer => simp [cancel, hId timer rfl]

theorem cancel_of_ne
    {id : Nat}
    {account : TimerAccount N}
    (hId : ∀ timer, account.timer? = some timer → timer.id ≠ id) :
    account.cancel id = account := by
  rcases account with ⟨timer?, told⟩
  cases timer? with
  | none => rfl
  | some timer => simp [cancel, hId timer rfl]

end TimerAccount

namespace TimerBoard

variable {board : TimerBoard N}
variable {accounts : List (TimerAccount N)}

/- A board holds what its timers make up together, in some order. -/
structure AddsUpTo
    (board : TimerBoard N)
    (accounts : List (TimerAccount N)) : Prop where
  pending :
    board.timers.pending.Perm (accounts.filterMap (·.timer?))
  fired : board.fired.Perm (accounts.flatMap (·.told))

/- When all due timers fire, each of them does by itself. -/
theorem AddsUpTo.wake
    (hAdds : board.AddsUpTo accounts)
    (now : Nat) :
    (board.wake now).AddsUpTo (accounts.map (·.wake now)) where
  pending := by
    have hLeft := hAdds.pending.filterMap (·.left? now)
    rw [List.filterMap_filterMap] at hLeft
    rw [List.filterMap_map]
    exact (pending_fire_perm now board.timers).trans hLeft
  fired := by
    have hTold :=
      (told_fire_perm now board.timers).trans
        (hAdds.pending.flatMap_right (·.told now))
    have hNow := hTold.map fun name => (name, now)
    rw [List.map_flatMap, List.filterMap_eq_flatMap_toList,
      List.flatMap_assoc] at hNow
    rw [List.flatMap_map]
    exact
      (hAdds.fired.append hNow).trans
        (List.flatMap_append_perm accounts _ _)

/- When a timer is taken back, the others are as they were. -/
theorem AddsUpTo.cancel
    (hAdds : board.AddsUpTo accounts)
    (id : Nat) :
    AddsUpTo { board with timers := board.timers.cancel id }
      (accounts.map (·.cancel id)) where
  pending := by
    have hLeft :=
      hAdds.pending.filter fun timer => decide (timer.id ≠ id)
    rw [List.filter_filterMap] at hLeft
    rw [List.filterMap_map]
    exact hLeft
  fired := by
    rw [List.flatMap_map]
    exact hAdds.fired

/-
  Put a timer, if there is one, on a board where nothing is
  held under its name.
-/
def add
    (name : N)
    (timer? : Option (Timer N))
    (board : TimerBoard N) : TimerBoard N :=
  { board with
    timers :=
      ⟨board.timers.pending ++ timer?.toList, board.timers.next + 1⟩
    held := (name, .new board.timers.next) :: board.held }

theorem AddsUpTo.add
    (hAdds : board.AddsUpTo accounts)
    (name : N)
    (timer? : Option (Timer N)) :
    (board.add name timer?).AddsUpTo
      (accounts ++ [⟨timer?, []⟩]) where
  pending := by
    rw [List.filterMap_append]
    refine hAdds.pending.append ?_
    cases timer? <;> exact .refl _
  fired := by
    rw [List.flatMap_append, List.flatMap_singleton, List.append_nil]
    exact hAdds.fired

end TimerBoard

------------------------------------------------------------
-- One Timer
------------------------------------------------------------

namespace TimerRecord

variable {record : TimerRecord N}
variable {now later id : Nat}

/-
  The timer as it is set when all its deadlines until now are
  met and nobody takes it back.
-/
def next?
    (now id : Nat)
    (record : TimerRecord N) : Option (Timer N) :=
  if record.recurs then
    if record.span = 0 then
      none
    else
      some
        ⟨id,
          record.since +
            ((now - record.since) / record.span + 1) * record.span,
          some record.span, record.name⟩
  else if now < record.since + record.span then
    some ⟨id, record.since + record.span, none, record.name⟩
  else
    none

/- The timer as it is set now, if it is. -/
def timer?
    (now id : Nat)
    (record : TimerRecord N) : Option (Timer N) :=
  match record.custody with
  | .ended _ => none
  | _ => record.next? now id

/- The account that the timer under a number has now. -/
def account
    (now id : Nat)
    (record : TimerRecord N) : TimerAccount N where
  timer? := record.timer? now id
  told := (record.firings now).map fun time => (record.name, time)

theorem next_of_recurs
    (hRecurs : record.recurs = true)
    (hSpan : record.span ≠ 0) :
    record.next? now id =
      some
        ⟨id,
          record.since +
            ((now - record.since) / record.span + 1) * record.span,
          some record.span, record.name⟩ := by
  rw [next?, if_pos hRecurs, if_neg hSpan]

theorem next_of_once
    (hOnce : record.recurs = false) :
    record.next? now id =
      if now < record.since + record.span then
        some ⟨id, record.since + record.span, none, record.name⟩
      else
        none := by
  rw [next?, if_neg (Bool.eq_false_iff.mp hOnce)]

theorem next_of_idle
    (hRecurs : record.recurs = true)
    (hSpan : record.span = 0) :
    record.next? now id = none := by
  rw [next?, if_pos hRecurs, if_pos hSpan]

/- A timer is set under its number, for later. -/
theorem ahead_of_next
    (hSince : record.since ≤ now)
    {timer : Timer N}
    (hNext : record.next? now id = some timer) :
    timer.id = id ∧ now < timer.deadline := by
  cases hRecurs : record.recurs with
  | true =>
      by_cases hSpan : record.span = 0
      · rw [next_of_idle hRecurs hSpan] at hNext
        cases hNext
      · rw [next_of_recurs hRecurs hSpan] at hNext
        cases hNext
        have hGrid :=
          Nat.lt_mul_div_succ (now - record.since)
            (Nat.pos_of_ne_zero hSpan)
        rw [Nat.mul_comm] at hGrid
        exact ⟨rfl, by dsimp only; omega⟩
  | false =>
      rw [next_of_once hRecurs] at hNext
      split at hNext
      · rename_i hAhead
        cases hNext
        exact ⟨rfl, hAhead⟩
      · cases hNext

/- As long as it does not meet a deadline, a timer stays as it is. -/
theorem next_of_lt
    (id : Nat)
    (hSince : record.since ≤ now)
    (hLater : now ≤ later)
    (hAhead :
      ∀ timer, record.next? now id = some timer →
        later < timer.deadline) :
    record.next? later id = record.next? now id ∧
      record.deadlinesBy later = record.deadlinesBy now := by
  cases hRecurs : record.recurs with
  | true =>
      rw [deadlinesBy_of_recurs hRecurs,
        deadlinesBy_of_recurs hRecurs]
      by_cases hSpan : record.span = 0
      · simp [next_of_idle hRecurs hSpan, hSpan]
      · rw [next_of_recurs hRecurs hSpan] at hAhead
        have hBefore := hAhead _ rfl
        have hGrid :=
          Nat.div_mul_le_self (now - record.since) record.span
        have hSame :
            (later - record.since) / record.span =
              (now - record.since) / record.span := by
          dsimp only at hBefore
          exact Nat.div_eq_of_lt_le (by omega) (by omega)
        rw [next_of_recurs hRecurs hSpan,
          next_of_recurs hRecurs hSpan, hSame]
        exact ⟨rfl, rfl⟩
  | false =>
      rw [next_of_once hRecurs] at hAhead
      rw [deadlinesBy_of_once hRecurs, deadlinesBy_of_once hRecurs,
        next_of_once hRecurs, next_of_once hRecurs]
      by_cases hMet : record.since + record.span ≤ now
      · have hStill := Nat.le_trans hMet hLater
        rw [if_pos hMet, if_pos hStill, if_neg (Nat.not_lt.mpr hMet),
          if_neg (Nat.not_lt.mpr hStill)]
        exact ⟨rfl, rfl⟩
      · rw [if_pos (Nat.lt_of_not_le hMet)] at hAhead
        have hBefore : later < record.since + record.span :=
          hAhead _ rfl
        rw [if_neg hMet, if_neg (Nat.not_le.mpr hBefore),
          if_pos hBefore, if_pos (Nat.lt_of_not_le hMet)]
        exact ⟨rfl, rfl⟩

/-
  At its deadline a timer is gone, or it is set for one
  interval later, and it has met that deadline.
-/
theorem next_deadline
    {timer : Timer N}
    (hNext : record.next? now id = some timer) :
    record.next? timer.deadline id =
        timer.interval.map (fun interval =>
          { timer with deadline := timer.deadline + interval }) ∧
      timer.payload = record.name ∧
        record.deadlinesBy timer.deadline =
          record.deadlinesBy now ++ [timer.deadline] := by
  cases hRecurs : record.recurs with
  | true =>
      by_cases hSpan : record.span = 0
      · rw [next_of_idle hRecurs hSpan] at hNext
        cases hNext
      · rw [next_of_recurs hRecurs hSpan] at hNext
        cases hNext
        have hSteps :
            (record.since +
                  ((now - record.since) / record.span + 1) *
                    record.span -
                record.since) / record.span =
              (now - record.since) / record.span + 1 := by
          rw [Nat.add_sub_cancel_left,
            Nat.mul_div_cancel _ (Nat.pos_of_ne_zero hSpan)]
        refine ⟨?_, rfl, ?_⟩
        · rw [next_of_recurs hRecurs hSpan, hSteps,
            Nat.add_mul _ 1, Nat.one_mul, ← Nat.add_assoc]
          rfl
        · rw [deadlinesBy_of_recurs hRecurs,
            deadlinesBy_of_recurs hRecurs, hSteps,
            List.range_succ, List.map_append]
          rfl
  | false =>
      rw [next_of_once hRecurs] at hNext
      split at hNext
      · rename_i hAhead
        cases hNext
        refine ⟨?_, rfl, ?_⟩
        · rw [next_of_once hRecurs, if_neg (Nat.lt_irrefl _)]
          rfl
        · rw [deadlinesBy_of_once hRecurs,
            deadlinesBy_of_once hRecurs, if_pos (Nat.le_refl _),
            if_neg (Nat.not_le.mpr hAhead)]
          rfl
      · cases hNext

/- While nobody takes it back, a timer is set for its next deadline. -/
theorem account_of_kept
    (hKept : ∀ time, record.custody ≠ .ended time)
    (now id : Nat) :
    record.account now id =
      ⟨record.next? now id,
        (record.deadlinesBy now).map fun time =>
          (record.name, time)⟩ := by
  unfold account timer? firings Custody.horizon
  cases hCustody : record.custody with
  | held | detached => rfl
  | ended time => exact absurd hCustody (hKept time)

/- A timer that was taken back has fired what it fired by then. -/
theorem account_of_ended
    {time : Nat}
    (hEnded : record.custody = .ended time)
    (now id : Nat) :
    record.account now id =
      ⟨none,
        (record.deadlinesBy time).map fun time =>
          (record.name, time)⟩ := by
  unfold account timer? firings
  rw [hEnded]
  rfl

/-
  A timer whose time comes no later than the others' comes to
  where it is to be by itself when all due timers fire.
-/
theorem account_wake
    (hSince : record.since ≤ now)
    (hLater : now ≤ later)
    (hAhead :
      ∀ timer, (record.account now id).timer? = some timer →
        later ≤ timer.deadline) :
    (record.account now id).wake later = record.account later id := by
  by_cases hEnded : ∃ time, record.custody = .ended time
  · rcases hEnded with ⟨time, hEnded⟩
    rw [account_of_ended hEnded, account_of_ended hEnded]
    exact TimerAccount.wake_of_lt fun _ hNone => by cases hNone
  · rw [not_exists] at hEnded
    rw [account_of_kept hEnded] at hAhead
    rw [account_of_kept hEnded, account_of_kept hEnded]
    by_cases hMeets :
        ∃ timer,
          record.next? now id = some timer ∧ timer.deadline = later
    · rcases hMeets with ⟨timer, hNext, rfl⟩
      rcases next_deadline hNext with ⟨hLeft, hName, hMet⟩
      rw [hLeft, hMet, hNext]
      simp [TimerAccount.wake, Timer.left?_deadline,
        Timer.told_deadline, hName]
    · have hBefore :
          ∀ timer, record.next? now id = some timer →
            later < timer.deadline := by
        intro timer hNext
        refine Nat.lt_of_le_of_ne (hAhead timer hNext) ?_
        exact fun hSame => hMeets ⟨timer, hNext, hSame.symm⟩
      have hStays := next_of_lt id hSince hLater hBefore
      rw [hStays.1, hStays.2]
      exact TimerAccount.wake_of_lt hBefore

/- As long as nothing is due, a timer has the account it had. -/
theorem account_of_lt
    (hSince : record.since ≤ now)
    (hLater : now ≤ later)
    (hAhead :
      ∀ timer, (record.account now id).timer? = some timer →
        later < timer.deadline) :
    record.account later id = record.account now id := by
  rw [← account_wake hSince hLater fun timer hTimer =>
    Nat.le_of_lt (hAhead timer hTimer)]
  exact TimerAccount.wake_of_lt hAhead

/- A timer on a board is set under its number, for later. -/
theorem ahead_of_account
    (hSince : record.since ≤ now)
    {timer : Timer N}
    (hTimer : (record.account now id).timer? = some timer) :
    timer.id = id ∧ now < timer.deadline := by
  by_cases hEnded : ∃ time, record.custody = .ended time
  · rcases hEnded with ⟨time, hEnded⟩
    rw [account_of_ended hEnded] at hTimer
    cases hTimer
  · rw [account_of_kept (not_exists.mp hEnded)] at hTimer
    exact ahead_of_next hSince hTimer

/-
  A new timer that fires once is set, or it has fired if it
  has no delay.
-/
theorem account_of_new_once
    (name : N)
    (now delay id : Nat) :
    TimerAccount.wake now
        ⟨some ⟨id, now + delay, none, name⟩, []⟩ =
      account now id ⟨name, now, delay, false, .held⟩ := by
  rw [account_of_kept (by simp), next_of_once rfl,
    deadlinesBy_of_once rfl]
  cases delay with
  | zero =>
      let timer : Timer N := ⟨id, now, none, name⟩
      have hLeft : timer.left? now = none := timer.left?_deadline
      have hTold : timer.told now = [name] := timer.told_deadline
      simp [TimerAccount.wake, timer, hLeft, hTold]
  | succ rest =>
      have hAhead : now < now + (rest + 1) := by omega
      simp [TimerAccount.wake, Timer.left?_of_lt, Timer.told_of_lt,
        hAhead]

/- A new periodic timer is set for the end of its first interval. -/
theorem account_of_new_periodic
    (name : N)
    (now interval id : Nat) :
    account now id ⟨name, now, interval, true, .held⟩ =
      ⟨if interval = 0 then
          none
        else
          some ⟨id, now + interval, some interval, name⟩,
        []⟩ := by
  rw [account_of_kept (by simp), deadlinesBy_of_recurs rfl]
  by_cases hZero : interval = 0
  · rw [next_of_idle rfl hZero]
    simp [hZero]
  · rw [next_of_recurs rfl hZero]
    simp [hZero]

end TimerRecord

------------------------------------------------------------
-- Timers In A Row
------------------------------------------------------------

/- The accounts that timers have now, each under its number. -/
def accountsOf
    (now : Nat)
    (records : List (TimerRecord N)) : List (TimerAccount N) :=
  records.mapIdx fun id record => record.account now id

/- What changes every account by itself changes all of them. -/
theorem map_accountsOf
    {records : List (TimerRecord N)}
    {now later : Nat}
    {change : TimerAccount N → TimerAccount N}
    {become : TimerRecord N → TimerRecord N}
    (hEach :
      ∀ id record, records[id]? = some record →
        change (record.account now id) =
          (become record).account later id) :
    (accountsOf now records).map change =
      accountsOf later (records.map become) := by
  refine List.ext_getElem? fun id => ?_
  unfold accountsOf
  rw [List.getElem?_map, List.getElem?_mapIdx, List.getElem?_mapIdx,
    List.getElem?_map]
  cases hRecord : records[id]? with
  | none => rfl
  | some record => exact congrArg some (hEach id record hRecord)

theorem accountsOf_concat
    (now : Nat)
    (records : List (TimerRecord N))
    (record : TimerRecord N) :
    accountsOf now (records ++ [record]) =
      accountsOf now records ++
        [record.account now records.length] :=
  List.mapIdx_concat

end OrderDesk
