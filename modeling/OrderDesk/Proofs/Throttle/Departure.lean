import OrderDesk.Proofs.Throttle.Passage

/-
  This file proves that a throttler does not idle and when
  an item that has to wait gets out of it. Items wait only
  while the window is full or the throttler is stopped, so
  that an item that comes may pass whenever the window has
  room. As long as the throttler is not stopped, every
  rollover lets a full window of those that wait pass, and
  the number of items ahead of an item tells at which
  rollover it passes, whatever comes after it.

  Key definitions include:
    * `Window.NeverIdles`
    * `Line.passing`
    * `Line.passingAll`
    * `rolloversIn`
    * `Line.WorksOff`

  Key theorems include:
    * `Line.neverIdles_take`
    * `Line.passingAll_append_buffer`
    * `Line.min_length_passingAll`
    * `Line.departs`
    * `Line.worksOff_takeAll`
-/

namespace OrderDesk

------------------------------------------------------------
-- Windows That Do Not Idle
------------------------------------------------------------

namespace Window

variable {α : Type} {w : Window α}

/-
  No more items have passed than the limit allows, and none
  waits in an open window as long as it allows more.
-/
structure NeverIdles
    (w : Window α) : Prop where
  sent_le : w.sent ≤ w.limit
  full : w.running = true → w.buffer ≠ [] → w.sent = w.limit

/- An item passes an open window with room where none waits. -/
theorem admits_iff
    (w : Window α) :
    w.admits = true ↔
      w.running = true ∧ w.buffer = [] ∧ w.sent < w.limit := by
  unfold admits room
  cases w.running with
  | false => simp
  | true =>
      simp only [if_true, Bool.and_eq_true, List.isEmpty_iff,
        decide_eq_true_eq, true_and, Nat.sub_pos_iff_lt]

/- In a window that does not idle it need not be asked who waits. -/
theorem NeverIdles.admits_iff_lt
    (hIdles : w.NeverIdles) :
    w.admits = true ↔ w.running = true ∧ w.sent < w.limit := by
  rw [admits_iff]
  constructor
  · rintro ⟨hRunning, _, hRoom⟩
    exact ⟨hRunning, hRoom⟩
  · rintro ⟨hRunning, hRoom⟩
    refine ⟨hRunning, ?_, hRoom⟩
    by_contra hWaiting
    have hFull := hIdles.full hRunning hWaiting
    omega

/- Whether an item that is sent passes or waits, nothing idles. -/
theorem NeverIdles.send
    (hIdles : w.NeverIdles)
    (item : α) :
    (w.send item).2.NeverIdles := by
  have hBounded := (w.passes_send item).bounded hIdles.sent_le
  unfold Window.send at hBounded ⊢
  by_cases hAdmits : w.admits = true
  · rw [if_pos hAdmits] at hBounded ⊢
    refine ⟨hBounded, ?_⟩
    intro _ hWaiting
    rw [admits_iff] at hAdmits
    exact absurd hAdmits.2.1 hWaiting
  · rw [if_neg hAdmits]
    refine ⟨hIdles.sent_le, ?_⟩
    intro hRunning _
    rw [hIdles.admits_iff_lt] at hAdmits
    have hSent := hIdles.sent_le
    by_contra hRoom
    exact hAdmits ⟨hRunning, Nat.lt_of_le_of_ne hSent hRoom⟩

theorem neverIdles_drain
    (hSent : w.sent ≤ w.limit) :
    w.drain.2.NeverIdles := by
  refine ⟨w.passes_drain.bounded hSent, ?_⟩
  intro hRunning hWaiting
  have hOpen : w.running = true := hRunning
  have hLeft : w.buffer.drop w.room ≠ [] := hWaiting
  have hRoom : w.room = w.limit - w.sent := by
    unfold room
    rw [if_pos hOpen]
  rw [ne_eq, List.drop_eq_nil_iff, Nat.not_le] at hLeft
  change w.sent + (w.buffer.take w.room).length = w.limit
  rw [List.length_take]
  omega

/- A window that rolls over does not idle, whatever was before. -/
theorem neverIdles_roll
    (w : Window α) :
    w.roll.2.NeverIdles :=
  neverIdles_drain (Nat.zero_le _)

theorem NeverIdles.start
    (hIdles : w.NeverIdles) :
    w.start.2.NeverIdles :=
  neverIdles_drain hIdles.sent_le

theorem NeverIdles.stop
    (hIdles : w.NeverIdles) :
    w.stop.NeverIdles where
  sent_le := hIdles.sent_le
  full := by
    intro hRunning
    cases hRunning

/- A rollover lets as many items pass as the limit allows. -/
theorem roll_of_running
    (hRunning : w.running = true) :
    w.roll.1 = w.buffer.take w.limit ∧
      w.roll.2.buffer = w.buffer.drop w.limit := by
  have hRoom : room { w with sent := 0 } = w.limit := by
    unfold room
    rw [if_pos hRunning]
    rfl
  unfold roll drain
  rw [hRoom]
  exact ⟨rfl, rfl⟩

end Window

------------------------------------------------------------
-- What Passes
------------------------------------------------------------

namespace Line

variable {α : Type} {line : Line α}

/- What a turn lets pass. -/
def passing
    (line : Line α) :
    Turn α → List α
| .send item => (line.throttler.send item).1
| .start => (line.throttler.start line.now () line.timers).1
| .stop => []
| .roll => line.throttler.roll.1

/- What turns let pass, in order. -/
def passingAll :
    Line α → List (Turn α) → List α
| _, [] => []
| line, turn :: rest =>
    line.passing turn ++ (line.take turn).passingAll rest

theorem passingAll_concat
    (line : Line α)
    (turns : List (Turn α))
    (turn : Turn α) :
    line.passingAll (turns ++ [turn]) =
      line.passingAll turns ++ (line.takeAll turns).passing turn := by
  induction turns generalizing line with
  | nil => simp [passingAll, takeAll]
  | cons first rest ih =>
      rw [List.cons_append, passingAll, passingAll, ih,
        List.append_assoc]
      rfl

/- What passes a line is what its window lets pass. -/
theorem passes_take
    (line : Line α)
    (turn : Turn α) :
    ∃ base,
      line.throttler.window.Passes base turn.item?.toList
        (line.passing turn) (line.take turn).throttler.window := by
  cases turn with
  | send item =>
      refine ⟨line.throttler.window.sent, ?_⟩
      dsimp only [take, send]
      rw [throttler_forward]
      exact line.throttler.window.passes_send item
  | start =>
      refine ⟨line.throttler.window.sent, ?_⟩
      dsimp only [take, passing]
      cases hTimer : line.throttler.timer with
      | some id =>
          rw [(throttler_start_of_some hTimer).1]
          simp only [Throttler.start, hTimer]
          exact line.throttler.window.passes_self
      | none =>
          rw [(throttler_start_of_none hTimer).1]
          simp only [Throttler.start, hTimer]
          exact line.throttler.window.passes_start
  | stop => exact ⟨_, line.throttler.window.passes_stop⟩
  | roll =>
      refine ⟨0, ?_⟩
      dsimp only [take, roll]
      rw [throttler_forward]
      exact line.throttler.window.passes_roll

/- All that passes is handed on to what takes everything. -/
theorem delivered_take
    (turn : Turn α)
    (hTotal : line.downstream.refusal? = none) :
    (line.take turn).delivered =
      line.delivered ++
        (line.passing turn).map fun item => (item, line.now) := by
  cases turn with
  | send item =>
      dsimp only [take, send, passing]
      rw [forward_of_total]
      exact hTotal
  | start =>
      dsimp only [take, start, passing]
      rw [forward_of_total]
      exact hTotal
  | stop => simp [take, stop, passing]
  | roll =>
      dsimp only [take, roll, passing]
      rw [forward_of_total]
      exact hTotal

theorem limit_takeAll
    (line : Line α)
    (turns : List (Turn α)) :
    (line.takeAll turns).throttler.window.limit =
      line.throttler.window.limit := by
  induction turns using List.reverseRecOn with
  | nil => rfl
  | append_singleton turns turn ih =>
      rcases (line.takeAll turns).passes_take turn with
        ⟨base, hPasses⟩
      rw [takeAll_concat, hPasses.limit]
      exact ih

/-
  What has passed and then what waits is what waited and
  then what was sent.
-/
theorem passingAll_append_buffer
    (line : Line α)
    (turns : List (Turn α)) :
    line.passingAll turns ++
        (line.takeAll turns).throttler.window.buffer =
      line.throttler.window.buffer ++ itemsSent turns := by
  induction turns using List.reverseRecOn with
  | nil => simp [passingAll, takeAll, itemsSent]
  | append_singleton turns turn ih =>
      rcases (line.takeAll turns).passes_take turn with
        ⟨base, hPasses⟩
      rw [passingAll_concat, takeAll_concat, List.append_assoc,
        hPasses.fifo, ← List.append_assoc, ih, List.append_assoc,
        itemsSent_concat]

theorem passingAll_prefix
    (line : Line α)
    (turns : List (Turn α)) :
    line.passingAll turns <+:
      line.throttler.window.buffer ++ itemsSent turns := by
  rw [← passingAll_append_buffer]
  exact List.prefix_append _ _

------------------------------------------------------------
-- Lines That Do Not Idle
------------------------------------------------------------

/- Whatever is done to a line, its window does not idle. -/
theorem neverIdles_take
    (hIdles : line.throttler.window.NeverIdles)
    (turn : Turn α) :
    (line.take turn).throttler.window.NeverIdles := by
  cases turn with
  | send item =>
      dsimp only [take, send]
      rw [throttler_forward]
      exact hIdles.send item
  | start =>
      dsimp only [take]
      cases hTimer : line.throttler.timer with
      | some id =>
          rw [(throttler_start_of_some hTimer).1]
          exact hIdles
      | none =>
          rw [(throttler_start_of_none hTimer).1]
          exact hIdles.start
  | stop => exact hIdles.stop
  | roll =>
      dsimp only [take, roll]
      rw [throttler_forward]
      exact line.throttler.window.neverIdles_roll

/- Whatever is done to a new line, its window does not idle. -/
theorem neverIdles_takeAll
    (hIdles : line.throttler.window.NeverIdles)
    (turns : List (Turn α)) :
    (line.takeAll turns).throttler.window.NeverIdles := by
  induction turns using List.reverseRecOn with
  | nil => exact hIdles
  | append_singleton turns turn ih =>
      rw [takeAll_concat]
      exact neverIdles_take ih turn

theorem IsStarted.takeAll
    {started : Bool}
    (hStarted : line.IsStarted started)
    (turns : List (Turn α)) :
    (line.takeAll turns).IsStarted
      (turns.foldl Turn.startedAfter started) := by
  induction turns using List.reverseRecOn with
  | nil => exact hStarted
  | append_singleton turns turn ih =>
      rw [takeAll_concat, List.foldl_append]
      exact ih.take turn

theorem IsStarted.takeAll_of_stop_notMem
    (hStarted : line.IsStarted true)
    {turns : List (Turn α)}
    (hStop : Turn.stop ∉ turns) :
    (line.takeAll turns).IsStarted true := by
  induction turns using List.reverseRecOn with
  | nil => exact hStarted
  | append_singleton turns turn ih =>
      rw [List.mem_append, not_or, List.mem_singleton] at hStop
      have hNext := (ih hStop.1).take turn
      rw [takeAll_concat]
      cases turn with
      | stop => exact absurd rfl hStop.2
      | send item => exact hNext
      | start => exact hNext
      | roll => exact hNext

end Line

------------------------------------------------------------
-- When Items Pass
------------------------------------------------------------

/- The window rolls over in a turn. -/
def Turn.isRoll
    {α : Type} :
    Turn α → Bool
| .roll => true
| .send _ => false
| .start => false
| .stop => false

/- How often the window rolls over. -/
def rolloversIn
    {α : Type}
    (turns : List (Turn α)) : Nat :=
  turns.countP Turn.isRoll

theorem rolloversIn_concat
    {α : Type}
    (turns : List (Turn α))
    (turn : Turn α) :
    rolloversIn (turns ++ [turn]) =
      rolloversIn turns + if turn.isRoll then 1 else 0 := by
  unfold rolloversIn
  rw [List.countP_append, List.countP_singleton]

namespace Line

variable {α : Type} {line : Line α}

theorem passing_roll
    (hStarted : line.IsStarted true) :
    line.passing .roll =
      line.throttler.window.buffer.take
        line.throttler.window.limit :=
  (Window.roll_of_running hStarted.running).1

/- A start lets nothing pass if the line was started before. -/
theorem passing_start
    (hStarted : line.IsStarted true) :
    line.passing .start = [] := by
  rcases Option.isSome_iff_exists.mp hStarted.timer with
    ⟨id, hTimer⟩
  simp [passing, Throttler.start, hTimer]

/- An item that is sent passes only if none waits. -/
theorem passing_send_cases
    (line : Line α)
    (item : α) :
    line.passing (.send item) = [] ∨
      line.passing (.send item) = [item] ∧
        line.throttler.window.buffer = [] := by
  change
    (line.throttler.window.send item).1 = [] ∨
      (line.throttler.window.send item).1 = [item] ∧ _
  unfold Window.send
  by_cases hAdmits : line.throttler.window.admits = true
  · rw [if_pos hAdmits]
    rw [Window.admits_iff] at hAdmits
    exact .inr ⟨rfl, hAdmits.2.1⟩
  · rw [if_neg hAdmits]
    exact .inl rfl

/-
  Of the items that wait in a started line as many have
  passed as the rollovers since then allow. What was sent in
  the meantime comes after them and does not count.
-/
theorem min_length_passingAll
    (hStarted : line.IsStarted true)
    {turns : List (Turn α)}
    (hStop : Turn.stop ∉ turns) :
    min (line.passingAll turns).length
        line.throttler.window.buffer.length =
      min (rolloversIn turns * line.throttler.window.limit)
        line.throttler.window.buffer.length := by
  induction turns using List.reverseRecOn with
  | nil => simp [passingAll, rolloversIn]
  | append_singleton turns turn ih =>
      rw [List.mem_append, not_or, List.mem_singleton] at hStop
      have hBefore := ih hStop.1
      have hMiddle := hStarted.takeAll_of_stop_notMem hStop.1
      have hFifo :=
        congrArg List.length (line.passingAll_append_buffer turns)
      rw [List.length_append, List.length_append] at hFifo
      rw [passingAll_concat, List.length_append, rolloversIn_concat]
      cases turn with
      | stop => exact absurd rfl hStop.2
      | start =>
          rw [passing_start hMiddle]
          exact hBefore
      | send item =>
          rcases (line.takeAll turns).passing_send_cases item with
            hNone | ⟨hPasses, hEmpty⟩
          · rw [hNone]
            exact hBefore
          · rw [hEmpty, List.length_nil] at hFifo
            rw [hPasses, List.length_singleton]
            simp only [Turn.isRoll, Bool.false_eq_true, if_false,
              Nat.add_zero]
            omega
      | roll =>
          rw [passing_roll hMiddle, List.length_take, limit_takeAll]
          simp only [Turn.isRoll, if_true]
          rw [Nat.succ_mul]
          omega

/- As long as rollovers are few, only items ahead of one pass. -/
theorem passingAll_prefix_of_le
    (hStarted : line.IsStarted true)
    {ahead behind : List α}
    {item : α}
    (hWaiting :
      line.throttler.window.buffer = ahead ++ item :: behind)
    {turns : List (Turn α)}
    (hStop : Turn.stop ∉ turns)
    (hFew :
      rolloversIn turns * line.throttler.window.limit ≤
        ahead.length) :
    line.passingAll turns <+: ahead := by
  have hPassed := min_length_passingAll hStarted hStop
  have hAhead :
      ahead <+: line.throttler.window.buffer ++ itemsSent turns := by
    rw [hWaiting, List.append_assoc]
    exact List.prefix_append _ _
  apply
    List.prefix_of_prefix_length_le (line.passingAll_prefix turns)
      hAhead
  rw [hWaiting, List.length_append, List.length_cons] at hPassed
  omega

/- Once rollovers are enough, an item has passed. -/
theorem prefix_passingAll_of_lt
    (hStarted : line.IsStarted true)
    {ahead behind : List α}
    {item : α}
    (hWaiting :
      line.throttler.window.buffer = ahead ++ item :: behind)
    {turns : List (Turn α)}
    (hStop : Turn.stop ∉ turns)
    (hEnough :
      ahead.length <
        rolloversIn turns * line.throttler.window.limit) :
    ahead ++ [item] <+: line.passingAll turns := by
  have hPassed := min_length_passingAll hStarted hStop
  have hItem :
      ahead ++ [item] <+:
        line.throttler.window.buffer ++ itemsSent turns := by
    rw [hWaiting, List.append_cons ahead item behind,
      List.append_assoc]
    exact List.prefix_append _ _
  apply
    List.prefix_of_prefix_length_le hItem
      (line.passingAll_prefix turns)
  rw [hWaiting, List.length_append, List.length_cons] at hPassed
  rw [List.length_append, List.length_singleton]
  omega

/-
  The item that waits with some ahead of it in a started
  line. Until there have been as many rollovers as full
  windows are ahead of it, only items ahead of it pass, and
  with the next rollover it passes.
-/
theorem departs
    (hStarted : line.IsStarted true)
    {ahead behind : List α}
    {item : α}
    (hWaiting :
      line.throttler.window.buffer = ahead ++ item :: behind)
    {turns : List (Turn α)}
    (hStop : Turn.stop ∉ turns)
    (hRollovers :
      rolloversIn turns =
        ahead.length / line.throttler.window.limit) :
    line.passingAll turns <+: ahead ∧
      ahead ++ [item] <+: line.passingAll (turns ++ [.roll]) := by
  have hStop' : Turn.stop ∉ turns ++ [.roll] := by
    simp [hStop]
  constructor
  · apply passingAll_prefix_of_le hStarted hWaiting hStop
    rw [hRollovers]
    exact Nat.div_mul_le_self _ _
  · apply prefix_passingAll_of_lt hStarted hWaiting hStop'
    rw [rolloversIn_concat, hRollovers]
    exact Nat.lt_mul_of_div_lt (Nat.lt_succ_self _)
      line.throttler.window.limit_pos

/-
  How a line with the given limit works off what is sent. No
  more items pass than the limit allows, and none waits in
  an open window that has room, so that an item that is sent
  may pass if and only if the window is open and has room:
  that nobody waits then goes without saying. Each rollover
  of a started line lets as many of the waiting items pass
  as the limit allows, and an item passes with the rollover
  that the number of those ahead of it tells, unless the
  line is stopped. What passes is handed on.
-/
structure WorksOff
    (line : Line α)
    (limit : Nat) : Prop where
  sent_le : line.throttler.window.sent ≤ limit
  full :
    line.throttler.isRunning = true →
      line.throttler.window.buffer ≠ [] →
        line.throttler.window.sent = limit
  tests :
    line.throttler.window.admits = true ↔
      line.throttler.isRunning = true ∧
        line.throttler.window.buffer = [] ∧
          line.throttler.window.sent < limit
  admits :
    line.throttler.window.admits = true ↔
      line.throttler.isRunning = true ∧
        line.throttler.window.sent < limit
  rollover :
    line.throttler.isRunning = true →
      line.passing .roll =
          line.throttler.window.buffer.take limit ∧
        (line.passing .roll).length =
            min limit line.throttler.buffered ∧
          (line.take .roll).throttler.window.buffer =
            line.throttler.window.buffer.drop limit
  departure :
    line.throttler.isRunning = true →
      ∀ ahead item behind,
        line.throttler.window.buffer = ahead ++ item :: behind →
          ∀ turns,
            Turn.stop ∉ turns →
              rolloversIn turns = ahead.length / limit →
                line.passingAll turns <+: ahead ∧
                  ahead ++ [item] <+:
                    line.passingAll (turns ++ [.roll])
  handedOn :
    line.downstream.refusal? = none →
      ∀ turn,
        (line.take turn).delivered =
          line.delivered ++
            (line.passing turn).map fun item => (item, line.now)

/-
  A throttler works off what is sent, whatever is done to it
  and whatever comes behind it.
-/
theorem worksOff_takeAll
    {name : String}
    {intervalMs limit : Nat}
    {throttler : Throttler α}
    (hNew : Throttler.new name intervalMs limit = .ok throttler)
    (downstream : Downstream)
    (turns : List (Turn α)) :
    ((new throttler downstream).takeAll turns).WorksOff limit := by
  have hIdles :
      ((new throttler downstream).takeAll
        turns).throttler.window.NeverIdles := by
    apply neverIdles_takeAll
    rcases Throttler.eq_of_new hNew with ⟨_, _, rfl⟩
    exact ⟨Nat.zero_le _, fun hRunning => by cases hRunning⟩
  have hLimit :
      ((new throttler downstream).takeAll
        turns).throttler.window.limit = limit := by
    rw [limit_takeAll]
    rcases Throttler.eq_of_new hNew with ⟨_, _, rfl⟩
    rfl
  have hStarted :
      ((new throttler downstream).takeAll turns).IsStarted
        (isStarted turns) := by
    apply IsStarted.takeAll
    rcases Throttler.eq_of_new hNew with ⟨_, _, rfl⟩
    exact ⟨rfl, rfl⟩
  generalize (new throttler downstream).takeAll turns = line at *
  generalize isStarted turns = started at hStarted
  subst hLimit
  refine
    { sent_le := hIdles.sent_le
      full := hIdles.full
      tests := line.throttler.window.admits_iff
      admits := hIdles.admits_iff_lt
      rollover := ?_
      departure := ?_
      handedOn := fun hTotal turn => delivered_take turn hTotal }
  · intro hRunning
    have hPassing := Window.roll_of_running hRunning
    refine ⟨hPassing.1, ?_, ?_⟩
    · change line.throttler.window.roll.1.length = _
      rw [hPassing.1, List.length_take]
      rfl
    · dsimp only [take, roll]
      rw [throttler_forward]
      exact hPassing.2
  · intro hRunning ahead item behind hWaiting turns hStop hRollovers
    have hTrue : started = true :=
      hStarted.running.symm.trans hRunning
    rw [hTrue] at hStarted
    exact departs hStarted hWaiting hStop hRollovers

/-
  Two numbers pass and four have to wait; the throttler has
  been stopped and started again in the meantime.
-/
def sixAtOnce : List (Turn Nat) :=
  [.send 1, .start, .send 2, .send 3, .stop, .send 4, .start,
    .send 5, .send 6]

/- More numbers come before and after a rollover. -/
def moreInBetween : List (Turn Nat) :=
  [.send 7, .roll, .start, .send 8]

/-
  The last of those that wait has three ahead of it, so that
  it passes with the second rollover.
-/
theorem worksOff_takeAll_sixAtOnce :
    Throttler.new "orders" 1000 2 = .ok twoASecond ∧
      ((new twoASecond .consumer).takeAll
          sixAtOnce).throttler.window.buffer = [3, 4, 5] ++ [6] ∧
        Turn.stop ∉ moreInBetween ∧
        rolloversIn moreInBetween = [3, 4, 5].length / 2 ∧
        ((new twoASecond .consumer).takeAll sixAtOnce).passingAll
            moreInBetween <+: [3, 4, 5] ∧
          [3, 4, 5] ++ [6] <+:
            ((new twoASecond .consumer).takeAll
              sixAtOnce).passingAll (moreInBetween ++ [.roll]) := by
  have hNew : Throttler.new "orders" 1000 2 = .ok twoASecond := rfl
  have hWaiting :
      ((new twoASecond .consumer).takeAll
        sixAtOnce).throttler.window.buffer = [3, 4, 5] ++ [6] :=
    rfl
  have hStop : Turn.stop ∉ moreInBetween := by
    simp [moreInBetween]
  have hRollovers :
      rolloversIn moreInBetween = [3, 4, 5].length / 2 :=
    rfl
  have hWorksOff := worksOff_takeAll hNew .consumer sixAtOnce
  exact
    ⟨hNew, hWaiting, hStop, hRollovers,
      hWorksOff.departure rfl [3, 4, 5] 6 [] hWaiting moreInBetween
        hStop hRollovers⟩

end Line

end OrderDesk
