import Mathlib.Data.List.Induction
import OrderDesk.Proofs.Timer.Account

/-
  This file proves that a board of timers does what its
  timers do by themselves. Whatever is done with a board, it
  holds the handles that are held, and what is set on it and
  what has fired adds up from the accounts of its timers.

  Key definitions include:
    * `TimerRecord.IsHeldAs`
    * `TimerBoard.Holds`
    * `TimerBoard.Tracks`

  Key theorems include:
    * `TimerBoard.Tracks.release`
    * `TimerBoard.Tracks.detach`
    * `TimerBoard.Tracks.act`
    * `TimerBoard.tracks_live`
-/

namespace OrderDesk

variable {N : Type}

------------------------------------------------------------
-- Timers Whose Handles Are Held
------------------------------------------------------------

namespace TimerRecord

/- Somebody holds the handle of the timer under a name. -/
def IsHeldAs
    (name : N)
    (record : TimerRecord N) : Prop :=
  record.name = name ∧ record.custody = .held

/- A timer whose handle is not held is not changed by an act. -/
theorem after_of_not_held [DecidableEq N]
    {record : TimerRecord N}
    (act : TimerAct N)
    {name : N}
    (hAct : act.name? = some name)
    (hOther : ¬ record.IsHeldAs name)
    (now : Nat) :
    record.after now act = record := by
  have hSame :
      record.custody.after record.name now act = record.custody := by
    by_cases hHeld : record.custody = .held
    · have hName : name ≠ record.name :=
        fun hName => hOther ⟨hName.symm, hHeld⟩
      apply Custody.after_of_not_concerns
      unfold TimerAct.concerns
      rw [hAct]
      exact decide_eq_false hName
    · exact Custody.after_of_ne_held hHeld record.name now act
  unfold after
  rw [hSame]

theorem not_isHeldAs_of_drop [DecidableEq N]
    {name : N}
    {now : Nat}
    {records : List (TimerRecord N)}
    {record : TimerRecord N}
    (hRecord :
      record ∈ records.map (·.after now (.drop name))) :
    ¬ record.IsHeldAs name := by
  rcases List.mem_map.mp hRecord with ⟨before, _, rfl⟩
  rintro ⟨hName, hHeld⟩
  have hBoth :=
    (Custody.after_eq_held_iff (.drop name) rfl before.name now
      before.custody).mp hHeld
  exact hBoth.2 hName.symm

end TimerRecord

/- Who is found in a row by number is before its end, or at it. -/
theorem exists_concat_iff
    {records : List (TimerRecord N)}
    {record : TimerRecord N}
    {P : Nat → TimerRecord N → Prop} :
    (∃ id other,
        (records ++ [record])[id]? = some other ∧ P id other) ↔
      (∃ id other, records[id]? = some other ∧ P id other) ∨
        P records.length record := by
  constructor
  · rintro ⟨id, other, hOther, hP⟩
    rw [List.getElem?_append] at hOther
    split at hOther
    · exact .inl ⟨id, other, hOther, hP⟩
    · rename_i hPast
      have hPlace := (List.getElem?_eq_some_iff.mp hOther).1
      rw [List.length_singleton] at hPlace
      have hLast : id = records.length := by omega
      cases List.mem_singleton.mp (List.mem_of_getElem? hOther)
      exact .inr (hLast ▸ hP)
  · rintro (⟨id, other, hOther, hP⟩ | hP)
    · refine ⟨id, other, ?_, hP⟩
      rw [List.getElem?_append_left
        (List.getElem?_eq_some_iff.mp hOther).1]
      exact hOther
    · exact
        ⟨records.length, record, List.getElem?_concat_length, hP⟩

------------------------------------------------------------
-- Boards That Keep Track
------------------------------------------------------------

namespace TimerBoard

variable {board : TimerBoard N}

variable [DecidableEq N]
variable {records : List (TimerRecord N)}
variable {name : N}

/-
  A board holds the handles of those timers, numbered in
  order, whose handles are held.
-/
structure Holds
    (board : TimerBoard N)
    (records : List (TimerRecord N)) : Prop where
  next : board.timers.next = records.length
  since_le : ∀ record ∈ records, record.since ≤ board.now
  held :
    ∀ name handle,
      board.held.lookup name = some handle ↔
        ∃ id record,
          records[id]? = some record ∧
            record.IsHeldAs name ∧ handle = .new id

/- A board keeps track of timers if it also has their accounts. -/
structure Tracks
    (board : TimerBoard N)
    (records : List (TimerRecord N)) : Prop
    extends board.Holds records where
  addsUp : board.AddsUpTo (accountsOf board.now records)

theorem tracks_empty :
    (empty : TimerBoard N).Tracks [] where
  next := rfl
  since_le := by simp
  held := by simp [empty]
  addsUp := ⟨.refl _, .refl _⟩

/- A name holds one handle at most. -/
theorem Holds.eq_of_held
    (hHolds : board.Holds records)
    {first second : Nat}
    {record other : TimerRecord N}
    (hRecord : records[first]? = some record)
    (hHeld : record.IsHeldAs name)
    (hOther : records[second]? = some other)
    (hToo : other.IsHeldAs name) :
    first = second := by
  have hFirst :=
    (hHolds.held name _).mpr ⟨first, record, hRecord, hHeld, rfl⟩
  have hSecond :=
    (hHolds.held name _).mpr ⟨second, other, hOther, hToo, rfl⟩
  rw [hFirst] at hSecond
  cases hSecond
  rfl

theorem lookup_filter_ne
    {held : List (N × TimerHandle)}
    (name other : N) :
    (held.filter (·.1 ≠ name)).lookup other =
      if other = name then none else held.lookup other := by
  induction held with
  | nil => simp
  | cons entry rest ih =>
      rcases entry with ⟨key, handle⟩
      by_cases hKey : key = name
      · subst hKey
        rw [List.filter_cons_of_neg (by simp), ih]
        by_cases hOther : other = key
        · rw [if_pos hOther, if_pos hOther]
        · rw [if_neg hOther, if_neg hOther, List.lookup_cons,
            beq_false_of_ne hOther]
      · rw [List.filter_cons_of_pos (by simp [hKey]),
          List.lookup_cons, List.lookup_cons, ih]
        by_cases hOther : other = name
        · subst hOther
          rw [beq_false_of_ne (Ne.symm hKey), if_pos rfl]
        · simp [hOther]

theorem Holds.forget
    (hHolds : board.Holds records)
    {act : TimerAct N}
    (hAct : act.name? = some name) :
    (board.forget name).Holds (records.map (·.after board.now act))
    where
  next := by
    rw [List.length_map]
    exact hHolds.next
  since_le := by
    intro record hRecord
    rcases List.mem_map.mp hRecord with ⟨before, hBefore, rfl⟩
    exact hHolds.since_le before hBefore
  held := by
    intro other handle
    change (board.held.filter (·.1 ≠ name)).lookup other = _ ↔ _
    rw [lookup_filter_ne]
    constructor
    · intro hLookup
      split at hLookup
      · cases hLookup
      · rename_i hOther
        rcases (hHolds.held other handle).mp hLookup with
          ⟨id, record, hRecord, ⟨rfl, hHeld⟩, rfl⟩
        refine
          ⟨id, record.after board.now act, ?_, ⟨rfl, ?_⟩, rfl⟩
        · rw [List.getElem?_map, hRecord]
          rfl
        · exact
            (Custody.after_eq_held_iff act hAct _ _ _).mpr
              ⟨hHeld, Ne.symm hOther⟩
    · rintro ⟨id, after, hAfter, ⟨rfl, hHeld⟩, rfl⟩
      rw [List.getElem?_map, Option.map_eq_some_iff] at hAfter
      rcases hAfter with ⟨record, hRecord, rfl⟩
      rcases (Custody.after_eq_held_iff act hAct _ _ _).mp hHeld with
        ⟨hBefore, hOther⟩
      have hName : record.name ≠ name := Ne.symm hOther
      change (if record.name = name then none else _) = _
      rw [if_neg hName]
      exact
        (hHolds.held record.name _).mpr
          ⟨id, record, hRecord, ⟨rfl, hBefore⟩, rfl⟩

/-
  Using up a handle does what it does to the account of its
  timer. If there is none under the name, nothing is done.
-/
theorem Tracks.spend
    (hTracks : board.Tracks records)
    (act : TimerAct N)
    (hAct : act.name? = some name)
    {how : TimerHandle → Timers N → Timers N}
    (hHow :
      ∀ id record, records[id]? = some record →
        record.IsHeldAs name →
          (how (.new id) board.timers).next = board.timers.next ∧
            AddsUpTo
              { board with timers := how (.new id) board.timers }
              (accountsOf board.now
                (records.map (·.after board.now act)))) :
    (board.spend how name).Tracks
      (records.map (·.after board.now act)) := by
  unfold TimerBoard.spend
  cases hLookup : board.held.lookup name with
  | none =>
      have hSame :
          records.map (·.after board.now act) = records := by
        refine
          (List.map_congr_left fun record hRecord => ?_).trans
            (List.map_id records)
        rcases List.mem_iff_getElem?.mp hRecord with ⟨id, hRecord⟩
        apply TimerRecord.after_of_not_held act hAct
        intro hHeld
        rw [(hTracks.held name _).mpr
          ⟨id, record, hRecord, hHeld, rfl⟩] at hLookup
        cases hLookup
      rw [hSame]
      exact hTracks
  | some handle =>
      rcases (hTracks.held name handle).mp hLookup with
        ⟨id, record, hRecord, hHeld, rfl⟩
      rcases hHow id record hRecord hHeld with ⟨hNext, hAdds⟩
      have hHolds := hTracks.forget hAct
      exact
        { next := hNext.trans hHolds.next
          since_le := hHolds.since_le
          held := hHolds.held
          addsUp := ⟨hAdds.pending, hAdds.fired⟩ }

/- Dropping a handle ends what it held. -/
theorem Tracks.release
    (hTracks : board.Tracks records)
    (name : N) :
    (board.release name).Tracks
      (records.map (·.after board.now (.drop name))) := by
  refine hTracks.spend (.drop name) rfl ?_
  intro id record hRecord hHeld
  rw [TimerHandle.drop_new]
  refine ⟨rfl, ?_⟩
  have hAdds := hTracks.addsUp.cancel id
  have hEach :
      (accountsOf board.now records).map (·.cancel id) =
        accountsOf board.now
          (records.map (·.after board.now (.drop name))) := by
    refine map_accountsOf fun place other hOther => ?_
    have hSince :=
      hTracks.since_le other (List.mem_of_getElem? hOther)
    by_cases hToo : other.IsHeldAs name
    · cases hTracks.eq_of_held hRecord hHeld hOther hToo
      have hEnded :
          (other.after board.now (.drop name)).custody =
            .ended board.now := by
        unfold TimerRecord.after
        rw [hToo.2]
        exact if_pos hToo.1.symm
      rw [TimerRecord.account_of_ended hEnded,
        TimerRecord.account_of_kept (by simp [hToo.2])]
      exact
        TimerAccount.cancel_of_eq fun timer hTimer =>
          (TimerRecord.ahead_of_next hSince hTimer).1
    · rw [TimerRecord.after_of_not_held (.drop name) rfl hToo]
      have hPlace : place ≠ id := by
        rintro rfl
        rw [hRecord] at hOther
        cases hOther
        exact hToo hHeld
      refine TimerAccount.cancel_of_ne fun timer hTimer => ?_
      rw [(TimerRecord.ahead_of_account hSince hTimer).1]
      exact hPlace
  rw [hEach] at hAdds
  exact hAdds

/- Detaching a timer changes nothing about when it fires. -/
theorem Tracks.detach
    (hTracks : board.Tracks records)
    (name : N) :
    (board.detach name).Tracks
      (records.map (·.after board.now (.detach name))) := by
  refine hTracks.spend (.detach name) rfl ?_
  intro id record hRecord hHeld
  rw [TimerHandle.detach_eq]
  refine ⟨rfl, ?_⟩
  have hSame :
      (accountsOf board.now records).map (·) =
        accountsOf board.now
          (records.map (·.after board.now (.detach name))) := by
    refine map_accountsOf fun place other _ => ?_
    by_cases hToo : other.IsHeldAs name
    · have hDetached :
          (other.after board.now (.detach name)).custody =
            .detached := by
        unfold TimerRecord.after
        rw [hToo.2]
        exact if_pos hToo.1.symm
      rw [TimerRecord.account_of_kept (by simp [hToo.2]),
        TimerRecord.account_of_kept (by simp [hDetached])]
      rfl
    · rw [TimerRecord.after_of_not_held (.detach name) rfl hToo]
  rw [← hSame, List.map_id']
  exact hTracks.addsUp

/-
  Whoever sets a timer under a name might as well drop the
  old handle first: the new timer has a number of its own.
-/
theorem Tracks.hold_eq
    (hTracks : board.Tracks records)
    {set : Timers N → Nat × Timers N}
    {timer? : Option (Timer N)}
    (hId :
      ∀ timer, timer? = some timer → timer.id = board.timers.next)
    (hSet :
      set board.timers =
        (board.timers.next,
          ⟨board.timers.pending ++ timer?.toList,
            board.timers.next + 1⟩)) :
    board.hold name set = (board.release name).add name timer? := by
  unfold TimerBoard.hold TimerBoard.release TimerBoard.spend
    TimerBoard.add
  rw [hSet]
  dsimp only
  cases hLookup : board.held.lookup name with
  | none => rfl
  | some handle =>
      rcases (hTracks.held name handle).mp hLookup with
        ⟨id, record, hRecord, -, rfl⟩
      have hNew : board.timers.next ≠ id := by
        rw [hTracks.next]
        exact
          Nat.ne_of_gt (List.getElem?_eq_some_iff.mp hRecord).1
      have hKept :
          timer?.toList.filter (·.id ≠ id) = timer?.toList := by
        rw [List.filter_eq_self]
        intro timer hTimer
        rw [hId timer (Option.mem_toList.mp hTimer)]
        exact decide_eq_true hNew
      simp only [TimerHandle.drop_new, Timers.cancel,
        List.filter_append, hKept, forget]

/- Under a name that is free a new handle can be held. -/
theorem Holds.add
    (hHolds : board.Holds records)
    (hFree : ∀ record ∈ records, ¬ record.IsHeldAs name)
    {record : TimerRecord N}
    (hHeld : record.IsHeldAs name)
    (hSince : record.since = board.now)
    (timer? : Option (Timer N)) :
    (board.add name timer?).Holds (records ++ [record]) where
  next := by
    change board.timers.next + 1 = _
    rw [hHolds.next, List.length_append]
    rfl
  since_le := by
    intro other hOther
    rcases List.mem_append.mp hOther with hOld | hLast
    · exact hHolds.since_le other hOld
    · cases List.mem_singleton.mp hLast
      exact Nat.le_of_eq hSince
  held := by
    intro other handle
    rw [exists_concat_iff, ← hHolds.held other handle]
    change ((name, _) :: board.held).lookup other = some handle ↔ _
    rw [List.lookup_cons]
    by_cases hName : other = name
    · subst hName
      have hNone : board.held.lookup other = none := by
        rw [Option.eq_none_iff_forall_ne_some]
        intro handle hLookup
        rcases (hHolds.held other handle).mp hLookup with
          ⟨id, before, hBefore, hToo, -⟩
        exact hFree before (List.mem_of_getElem? hBefore) hToo
      rw [beq_self_eq_true, hNone, hHolds.next, Option.some.injEq]
      simp [hHeld, eq_comm]
    · have hOther : ¬ record.IsHeldAs other :=
        fun hToo => hName (hToo.1.symm.trans hHeld.1)
      rw [beq_false_of_ne hName]
      simp [hOther]

/- Under a name that was dropped a new timer can be set. -/
theorem Tracks.hold
    (hTracks : board.Tracks records)
    (name : N)
    (set : Timers N → Nat × Timers N)
    (timer? : Option (Timer N))
    (hId :
      ∀ timer, timer? = some timer → timer.id = board.timers.next)
    (hSet :
      set board.timers =
        (board.timers.next,
          ⟨board.timers.pending ++ timer?.toList,
            board.timers.next + 1⟩))
    (span : Nat)
    (recurs : Bool) :
    (board.hold name set).Holds
        (records.map (·.after board.now (.drop name)) ++
          [⟨name, board.now, span, recurs, .held⟩]) ∧
      (board.hold name set).AddsUpTo
        (accountsOf board.now
            (records.map (·.after board.now (.drop name))) ++
          [⟨timer?, []⟩]) := by
  have hReleased := hTracks.release name
  have hNow : (board.release name).now = board.now :=
    now_spend TimerHandle.drop name board
  rw [hTracks.hold_eq hId hSet, ← hNow]
  rw [← hNow] at hReleased
  exact
    ⟨hReleased.toHolds.add
        (fun _ => TimerRecord.not_isHeldAs_of_drop)
        ⟨rfl, rfl⟩ rfl timer?,
      hReleased.addsUp.add name timer?⟩

theorem Holds.wake
    (hHolds : board.Holds records)
    {later : Nat}
    (hLater : board.now ≤ later) :
    (board.wake later).Holds records where
  next := hHolds.next
  since_le := fun record hRecord =>
    Nat.le_trans (hHolds.since_le record hRecord) hLater
  held := hHolds.held

/- No account has a timer that is due already. -/
theorem Holds.ahead
    (hHolds : board.Holds records)
    {account : TimerAccount N}
    (hAccount : account ∈ accountsOf board.now records)
    {timer : Timer N}
    (hTimer : account.timer? = some timer) :
    board.now < timer.deadline := by
  rcases List.mem_iff_getElem?.mp hAccount with ⟨id, hAccount⟩
  rw [accountsOf, List.getElem?_mapIdx,
    Option.map_eq_some_iff] at hAccount
  rcases hAccount with ⟨record, hRecord, rfl⟩
  exact
    (TimerRecord.ahead_of_account
      (hHolds.since_le record (List.mem_of_getElem? hRecord))
      hTimer).2

/- Timers that have fired already do not fire again. -/
theorem Holds.map_wake
    (hHolds : board.Holds records) :
    (accountsOf board.now records).map (·.wake board.now) =
      accountsOf board.now records := by
  refine
    (List.map_congr_left fun account hAccount => ?_).trans
      (List.map_id _)
  exact
    TimerAccount.wake_of_lt fun _ hTimer =>
      hHolds.ahead hAccount hTimer

/- All timers on a board are set for later. -/
theorem Tracks.ahead
    (hTracks : board.Tracks records)
    {timer : Timer N}
    (hTimer : timer ∈ board.timers.pending) :
    board.now < timer.deadline := by
  rw [hTracks.addsUp.pending.mem_iff, List.mem_filterMap] at hTimer
  rcases hTimer with ⟨account, hAccount, hTimer⟩
  exact hTracks.toHolds.ahead hAccount hTimer

/- A timer that has an account is on the board if it is set. -/
theorem Tracks.mem_pending
    (hTracks : board.Tracks records)
    {id : Nat}
    {record : TimerRecord N}
    (hRecord : records[id]? = some record)
    {timer : Timer N}
    (hTimer : (record.account board.now id).timer? = some timer) :
    timer ∈ board.timers.pending := by
  rw [hTracks.addsUp.pending.mem_iff, List.mem_filterMap]
  refine ⟨record.account board.now id, ?_, hTimer⟩
  apply List.mem_of_getElem? (i := id)
  rw [accountsOf, List.getElem?_mapIdx, hRecord]
  rfl

/- A board keeps track when its earliest timers fire in time. -/
theorem Tracks.wake
    (hTracks : board.Tracks records)
    {later : Nat}
    (hLater : board.now ≤ later)
    (hAhead :
      ∀ timer ∈ board.timers.pending, later ≤ timer.deadline) :
    (board.wake later).Tracks records := by
  refine ⟨hTracks.toHolds.wake hLater, ?_⟩
  have hAdds := hTracks.addsUp.wake later
  have hEach :
      (accountsOf board.now records).map (·.wake later) =
        accountsOf later (records.map fun record => record) := by
    refine map_accountsOf fun id record hRecord => ?_
    exact
      TimerRecord.account_wake
        (hTracks.since_le record (List.mem_of_getElem? hRecord))
        hLater
        (fun timer hTimer =>
          hAhead timer (hTracks.mem_pending hRecord hTimer))
  rw [hEach, List.map_id'] at hAdds
  exact hAdds

/- A board keeps track while time passes and nothing is due. -/
theorem Tracks.wait
    (hTracks : board.Tracks records)
    {later : Nat}
    (hLater : board.now ≤ later)
    (hAhead :
      ∀ timer ∈ board.timers.pending, later < timer.deadline) :
    Tracks { board with now := later } records := by
  have hSame :
      (accountsOf board.now records).map (fun account => account) =
        accountsOf later (records.map fun record => record) := by
    refine map_accountsOf fun id record hRecord => ?_
    exact
      (TimerRecord.account_of_lt
        (hTracks.since_le record (List.mem_of_getElem? hRecord))
        hLater
        (fun timer hTimer =>
          hAhead timer (hTracks.mem_pending hRecord hTimer))).symm
  rw [List.map_id', List.map_id'] at hSame
  refine ⟨⟨hTracks.next, ?_, hTracks.held⟩, ?_, ?_⟩
  · intro record hRecord
    exact Nat.le_trans (hTracks.since_le record hRecord) hLater
  · change
      board.timers.pending.Perm
        ((accountsOf later records).filterMap _)
    rw [← hSame]
    exact hTracks.addsUp.pending
  · change board.fired.Perm ((accountsOf later records).flatMap _)
    rw [← hSame]
    exact hTracks.addsUp.fired

theorem Tracks.advance
    (hTracks : board.Tracks records)
    (ms : Nat) :
    (board.advance ms).Tracks records := by
  refine
    Timed.advance_induction
      (fun now (board : TimerBoard N) =>
        board.now = now ∧ board.Tracks records)
      (fun later : TimerBoard N =>
        Tracks { later with now := board.now + ms } records)
      ?_ ?_ (Nat.le_add_right _ ms) ⟨rfl, hTracks⟩
  · rintro _ board deadline ⟨rfl, hTracks⟩ hLater hDeadline
    refine ⟨rfl, hTracks.wake (Nat.le_of_lt hLater) ?_⟩
    exact fun _ hTimer => deadline?_le hDeadline hTimer
  · rintro _ board ⟨rfl, hTracks⟩ hLater hRest
    refine hTracks.wait hLater (lt_deadline?_iff.mp ?_)
    intro deadline hDeadline
    have hAhead := lt_deadline?_iff.mpr fun _ => hTracks.ahead
    exact hRest deadline hDeadline (hAhead deadline hDeadline)

theorem Tracks.periodic
    (hTracks : board.Tracks records)
    (name : N)
    (interval : Nat) :
    (board.periodic name interval).Tracks
      (records.map (·.after board.now (.drop name)) ++
        [⟨name, board.now, interval, true, .held⟩]) := by
  have hHold :=
    hTracks.hold name (Timers.periodic board.now interval name)
      (if interval = 0 then
        none
      else
        some
          ⟨board.timers.next, board.now + interval, some interval,
            name⟩)
      (by
        intro timer hTimer
        split at hTimer <;> cases hTimer
        rfl)
      (by
        unfold Timers.periodic
        split <;> rfl)
      interval true
  refine ⟨hHold.1, ?_⟩
  rw [now_periodic, accountsOf_concat,
    TimerRecord.account_of_new_periodic, List.length_map,
    ← hTracks.next]
  exact hHold.2

theorem Tracks.once
    (hTracks : board.Tracks records)
    (name : N)
    (delay : Nat) :
    (board.once name delay).Tracks
      (records.map (·.after board.now (.drop name)) ++
        [⟨name, board.now, delay, false, .held⟩]) := by
  rcases hTracks.hold name (Timers.once board.now delay name)
      (some ⟨board.timers.next, board.now + delay, none, name⟩)
      (by rintro timer ⟨⟩; rfl) rfl delay false with
    ⟨hHolds, hAdds⟩
  refine ⟨hHolds.wake (Nat.le_of_eq (now_hold name _ board)), ?_⟩
  have hWake := hAdds.wake board.now
  have hOthers := (hTracks.release name).toHolds.map_wake
  rw [TimerBoard.release, now_spend] at hOthers
  rw [List.map_append, hOthers] at hWake
  change AddsUpTo _ (accountsOf board.now _)
  rw [accountsOf_concat, ← TimerRecord.account_of_new_once,
    List.length_map, ← hTracks.next]
  exact hWake

/-
  Whatever is done, a board keeps track of the timers that
  were set before and of the one that is set now.
-/
theorem Tracks.act
    (hTracks : board.Tracks records)
    (act : TimerAct N) :
    (board.act act).Tracks
        (records.map (·.after board.now act) ++
          (act.record? board.now []).toList) ∧
      (board.act act).now = board.now + act.duration := by
  cases act with
  | once name delay =>
      refine ⟨?_, rfl⟩
      simp only [TimerRecord.after, Custody.after_once]
      exact hTracks.once name delay
  | periodic name interval =>
      refine ⟨?_, now_periodic name interval board⟩
      simp only [TimerRecord.after, Custody.after_periodic]
      exact hTracks.periodic name interval
  | cancel name =>
      refine ⟨?_, now_spend TimerHandle.cancel name board⟩
      simp only [TimerRecord.after, Custody.after_cancel]
      rw [TimerBoard.act, cancel_eq_release]
      exact (List.append_nil _).symm ▸ hTracks.release name
  | drop name =>
      refine ⟨?_, now_spend TimerHandle.drop name board⟩
      exact (List.append_nil _).symm ▸ hTracks.release name
  | detach name =>
      refine ⟨?_, now_spend TimerHandle.detach name board⟩
      exact (List.append_nil _).symm ▸ hTracks.detach name
  | pass ms =>
      refine ⟨?_, rfl⟩
      simp only [TimerRecord.after, Custody.after_pass]
      rw [List.map_id']
      exact (List.append_nil _).symm ▸ hTracks.advance ms

/- A board keeps track of all timers that acts have set. -/
theorem tracks_live
    (acts : List (TimerAct N)) :
    ((empty : TimerBoard N).live acts).Tracks (timersSet 0 acts) ∧
      ((empty : TimerBoard N).live acts).now = elapsed acts := by
  induction acts using List.reverseRecOn with
  | nil => exact ⟨tracks_empty, rfl⟩
  | append_singleton acts last ih =>
      rcases ih with ⟨hTracks, hNow⟩
      have hLast := hTracks.act last
      rw [live_concat, timersSet_concat, elapsed_append, Nat.zero_add,
        ← hNow]
      exact hLast

end TimerBoard

end OrderDesk
