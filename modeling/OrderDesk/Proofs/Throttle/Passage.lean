import Mathlib.Data.List.Induction
import OrderDesk.Throttle.Line

/-
  This file says once what each thing that is done to a
  throttler makes of its window, and proves that a throttler
  is a queue: whatever is done to it, and whenever its
  windows roll over, items come out in the order in which
  they went in, none is lost or doubled, and none comes out
  while the throttler is stopped.

  Key definitions include:
    * `Window.Passes`
    * `Line.Carries`
    * `Turn`
    * `Line.take`
    * `Line.Queues`

  Key theorems include:
    * `Line.carries_take`
    * `Line.Queues.take`
    * `Line.passed_append_waiting_eq_sent`
-/

namespace OrderDesk

------------------------------------------------------------
-- Windows
------------------------------------------------------------

namespace Window

variable {α : Type}

/-
  What becomes of a window when items come and others pass.
  What passes and then what waits is what waited and then
  what came. Whatever passes is counted, on top of `base`,
  and the count stays within the limit. Nothing passes if
  the window is not open afterwards.
-/
structure Passes
    (w : Window α)
    (base : Nat)
    (came passed : List α)
    (next : Window α) : Prop where
  fifo : passed ++ next.buffer = w.buffer ++ came
  limit : next.limit = w.limit
  count : next.sent = base + passed.length
  bounded : base ≤ w.limit → next.sent ≤ next.limit
  closed : next.running = false → passed = []

theorem passes_self
    (w : Window α) :
    w.Passes w.sent [] [] w where
  fifo := by simp
  limit := rfl
  count := rfl
  bounded := by
    intro hBase
    exact hBase
  closed := by
    intro _
    rfl

theorem passes_send
    (item : α)
    (w : Window α) :
    w.Passes w.sent [item] (w.send item).1 (w.send item).2 := by
  have hFifo := w.send_fst_append_buffer item
  unfold send at hFifo ⊢
  by_cases hAdmits : w.admits
  · have hRoom : 0 < w.room := by
      simp only [admits, Bool.and_eq_true, decide_eq_true_eq]
        at hAdmits
      exact hAdmits.2
    rw [if_pos hAdmits] at hFifo ⊢
    unfold room at hRoom
    split at hRoom
    · rename_i hRunning
      refine ⟨hFifo, rfl, rfl, ?_, ?_⟩
      · intro _
        dsimp only
        omega
      · intro hClosed
        cases hRunning.symm.trans hClosed
    · cases hRoom
  · rw [if_neg hAdmits] at hFifo ⊢
    refine ⟨hFifo, rfl, rfl, ?_, ?_⟩
    · intro hBase
      exact hBase
    · intro _
      rfl

theorem passes_drain
    (w : Window α) :
    w.Passes w.sent [] w.drain.1 w.drain.2 where
  fifo := by
    rw [List.append_nil]
    exact w.drain_fst_append_buffer
  limit := rfl
  count := rfl
  bounded := by
    intro hBase
    have hLength : w.drain.1.length ≤ w.room :=
      List.length_take_le _ _
    change w.sent + w.drain.1.length ≤ w.limit
    unfold room at hLength
    split at hLength <;> omega
  closed := by
    intro hClosed
    have hShut : w.running = false := hClosed
    simp [drain, room, hShut]

theorem passes_roll
    (w : Window α) :
    w.Passes 0 [] w.roll.1 w.roll.2 := by
  have hDrain := { w with sent := 0 }.passes_drain
  exact
    ⟨hDrain.fifo, hDrain.limit, hDrain.count, hDrain.bounded,
      hDrain.closed⟩

theorem passes_start
    (w : Window α) :
    w.Passes w.sent [] w.start.1 w.start.2 := by
  have hDrain := { w with running := true }.passes_drain
  exact
    ⟨hDrain.fifo, hDrain.limit, hDrain.count, hDrain.bounded,
      hDrain.closed⟩

theorem passes_stop
    (w : Window α) :
    w.Passes w.sent [] [] w.stop where
  fifo := by simp [stop]
  limit := rfl
  count := rfl
  bounded := by
    intro hBase
    exact hBase
  closed := by
    intro _
    rfl

end Window

------------------------------------------------------------
-- Lines
------------------------------------------------------------

namespace Line

variable {α : Type} {line : Line α}

/-
  A line whose window lets items pass hands them on to what
  comes behind, and neither does that change nor the time.
-/
structure Carries
    (line : Line α)
    (base : Nat)
    (came passed : List α)
    (next : Line α) : Prop where
  window :
    line.throttler.window.Passes base came passed
      next.throttler.window
  delivered :
    next.delivered =
      line.delivered ++ passed.map fun item => (item, line.now)
  downstream : next.downstream = line.downstream
  now : next.now = line.now
  interval :
    next.throttler.intervalMs = line.throttler.intervalMs

@[simp] theorem throttler_forward
    (line : Line α)
    (items : List α) :
    (line.forward items).throttler = line.throttler := by
  unfold forward
  split <;> rfl

@[simp] theorem timers_forward
    (line : Line α)
    (items : List α) :
    (line.forward items).timers = line.timers := by
  unfold forward
  split <;> rfl

@[simp] theorem now_forward
    (line : Line α)
    (items : List α) :
    (line.forward items).now = line.now := by
  unfold forward
  split <;> rfl

/- What comes behind a line gets all of it if it takes everything. -/
theorem forward_of_total
    (items : List α)
    (hTotal : line.downstream.refusal? = none) :
    line.forward items =
      { line with
        delivered :=
          line.delivered ++
            items.map fun item => (item, line.now) } := by
  unfold forward
  rw [hTotal]

/- Starting a throttler that has a timer changes nothing about it. -/
theorem throttler_start_of_some
    {id : Nat}
    (hTimer : line.throttler.timer = some id) :
    line.start.throttler = line.throttler ∧
      line.start.timers = line.timers := by
  simp [start, Throttler.start, hTimer]

/- Starting a throttler opens its window and sets its timer. -/
theorem throttler_start_of_none
    (hTimer : line.throttler.timer = none) :
    line.start.throttler =
        { line.throttler with
          window := line.throttler.window.start.2
          timer := some line.timers.next } ∧
      line.start.timers =
        (line.timers.periodic line.now line.throttler.intervalMs
          ()).2 := by
  simp [start, Throttler.start, hTimer, Throttler.put,
    Timers.periodic]

theorem carries_send
    (item : α)
    (hTotal : line.downstream.refusal? = none) :
    ∃ passed,
      line.Carries line.throttler.window.sent [item] passed
        (line.send item) := by
  refine ⟨(line.throttler.window.send item).1, ?_⟩
  dsimp only [send, Throttler.send, Throttler.put]
  rw [forward_of_total]
  · exact
      ⟨line.throttler.window.passes_send item, rfl, rfl, rfl, rfl⟩
  · exact hTotal

theorem carries_start
    (hTotal : line.downstream.refusal? = none) :
    ∃ passed,
      line.Carries line.throttler.window.sent [] passed
        line.start := by
  unfold start Throttler.start
  cases hTimer : line.throttler.timer with
  | some id =>
      refine ⟨[], ?_⟩
      dsimp only
      rw [forward_of_total]
      · exact
          ⟨line.throttler.window.passes_self, rfl, rfl, rfl, rfl⟩
      · exact hTotal
  | none =>
      refine ⟨line.throttler.window.start.1, ?_⟩
      dsimp only [Throttler.put]
      rw [forward_of_total]
      · exact
          ⟨line.throttler.window.passes_start, rfl, rfl, rfl, rfl⟩
      · exact hTotal

theorem carries_stop
    (line : Line α) :
    line.Carries line.throttler.window.sent [] [] line.stop where
  window := line.throttler.window.passes_stop
  delivered := by simp [stop]
  downstream := rfl
  now := rfl
  interval := rfl

theorem carries_roll
    (hTotal : line.downstream.refusal? = none) :
    ∃ passed, line.Carries 0 [] passed line.roll := by
  refine ⟨line.throttler.window.roll.1, ?_⟩
  dsimp only [roll, Throttler.roll, Throttler.put]
  rw [forward_of_total]
  · exact ⟨line.throttler.window.passes_roll, rfl, rfl, rfl, rfl⟩
  · exact hTotal

end Line

------------------------------------------------------------
-- Turns
------------------------------------------------------------

/-
  What can happen to a throttler. Its window may roll over
  at any time, even when it has just been stopped.
-/
inductive Turn (α : Type) where
  | send (item : α)
  | start
  | stop
  | roll

/- The item that a turn sends. -/
def Turn.item?
    {α : Type} :
    Turn α → Option α
| .send item => some item
| .start => none
| .stop => none
| .roll => none

/- The items that are sent, in order. -/
def itemsSent
    {α : Type}
    (turns : List (Turn α)) : List α :=
  turns.filterMap Turn.item?

/- What the last turn sends is sent last. -/
theorem itemsSent_concat
    {α : Type}
    (turns : List (Turn α))
    (turn : Turn α) :
    itemsSent (turns ++ [turn]) =
      itemsSent turns ++ turn.item?.toList := by
  unfold itemsSent
  rw [List.filterMap_append]
  cases hItem : turn.item? <;> simp [hItem]

/- Whether a throttler is started after a turn. -/
def Turn.startedAfter
    {α : Type}
    (started : Bool) :
    Turn α → Bool
| .send _ => started
| .start => true
| .stop => false
| .roll => started

/- Whether a new throttler is started after some turns. -/
def isStarted
    {α : Type}
    (turns : List (Turn α)) : Bool :=
  turns.foldl Turn.startedAfter false

namespace Line

variable {α : Type} {line : Line α}

/- What a turn makes of a line. -/
def take
    (line : Line α) :
    Turn α → Line α
| .send item => line.send item
| .start => line.start
| .stop => line.stop
| .roll => line.roll

/- What turns make of a line, one after the other. -/
def takeAll
    (line : Line α)
    (turns : List (Turn α)) : Line α :=
  turns.foldl take line

theorem takeAll_concat
    (line : Line α)
    (turns : List (Turn α))
    (turn : Turn α) :
    line.takeAll (turns ++ [turn]) =
      (line.takeAll turns).take turn :=
  List.foldl_append

/- Every turn makes the line carry items on. -/
theorem carries_take
    (turn : Turn α)
    (hTotal : line.downstream.refusal? = none) :
    ∃ base passed,
      line.Carries base turn.item?.toList passed
        (line.take turn) := by
  cases turn with
  | send item => exact ⟨_, carries_send item hTotal⟩
  | start => exact ⟨_, carries_start hTotal⟩
  | stop => exact ⟨_, _, carries_stop line⟩
  | roll => exact ⟨_, carries_roll hTotal⟩

/-
  Items pass if and only if the throttler has a timer, and
  that is so if and only if it was started.
-/
structure IsStarted
    (line : Line α)
    (started : Bool) : Prop where
  timer : line.throttler.timer.isSome = started
  running : line.throttler.isRunning = started

/- A throttler is started by a start and stopped by a stop. -/
theorem IsStarted.take
    {started : Bool}
    (hStarted : line.IsStarted started)
    (turn : Turn α) :
    (line.take turn).IsStarted (turn.startedAfter started) := by
  cases turn with
  | send item =>
      have hRunning :
          (line.throttler.window.send item).2.running =
            line.throttler.window.running := by
        unfold Window.send
        split <;> rfl
      dsimp only [Line.take, Line.send, Throttler.send,
        Throttler.put]
      constructor
      · rw [throttler_forward]
        exact hStarted.timer
      · rw [throttler_forward]
        exact hRunning.trans hStarted.running
  | start =>
      dsimp only [Line.take, Turn.startedAfter]
      cases hTimer : line.throttler.timer with
      | some id =>
          have hTrue : started = true := by
            rw [← hStarted.timer, hTimer]
            rfl
          have hSame := (throttler_start_of_some hTimer).1
          rw [hTrue] at hStarted
          constructor
          · rw [hSame]
            exact hStarted.timer
          · rw [hSame]
            exact hStarted.running
      | none =>
          have hNext := (throttler_start_of_none hTimer).1
          constructor
          · rw [hNext]
            rfl
          · rw [hNext]
            rfl
  | stop =>
      constructor
      · rfl
      · rfl
  | roll =>
      dsimp only [Line.take, Line.roll, Throttler.roll,
        Throttler.put]
      constructor
      · rw [throttler_forward]
        exact hStarted.timer
      · rw [throttler_forward]
        exact hStarted.running

------------------------------------------------------------
-- A Throttler Is A Queue
------------------------------------------------------------

/-
  What every turn preserves: what came out of the line and
  what waits in it is what was sent, and items may pass if
  and only if the throttler is started.
-/
structure Queues
    (line : Line α)
    (turns : List (Turn α)) : Prop where
  total : line.downstream.refusal? = none
  started : line.IsStarted (isStarted turns)
  fifo :
    line.delivered.map Prod.fst ++ line.throttler.window.buffer =
      itemsSent turns

/- A line stays a queue whatever turn it takes. -/
theorem Queues.take
    {turns : List (Turn α)}
    (hQueues : line.Queues turns)
    (turn : Turn α) :
    (line.take turn).Queues (turns ++ [turn]) := by
  rcases carries_take turn hQueues.total with
    ⟨base, passed, hCarries⟩
  constructor
  · rw [hCarries.downstream]
    exact hQueues.total
  · have hStarted := hQueues.started.take turn
    unfold isStarted at hStarted ⊢
    rw [List.foldl_append]
    exact hStarted
  · have hPassed :
        (passed.map fun item => (item, line.now)).map Prod.fst =
          passed := by
      simp [Function.comp_def]
    rw [hCarries.delivered, List.map_append, hPassed,
      List.append_assoc, hCarries.window.fifo,
      ← List.append_assoc, hQueues.fifo, itemsSent_concat]

theorem queues_takeAll
    {name : String}
    {intervalMs limit : Nat}
    {throttler : Throttler α}
    {downstream : Downstream}
    (hNew : Throttler.new name intervalMs limit = .ok throttler)
    (hTotal : downstream.refusal? = none)
    (turns : List (Turn α)) :
    ((Line.new throttler downstream).takeAll turns).Queues
      turns := by
  induction turns using List.reverseRecOn with
  | nil =>
      rcases Throttler.eq_of_new hNew with ⟨_, _, rfl⟩
      exact ⟨hTotal, ⟨rfl, rfl⟩, rfl⟩
  | append_singleton turns turn ih =>
      rw [takeAll_concat]
      exact ih.take turn

/-
  A throttler is a queue that can be stopped: what came out
  of it and what still waits is what was sent, in the order
  in which it was sent, and a turn that does not leave it
  started brings nothing out.
-/
theorem passed_append_waiting_eq_sent
    {name : String}
    {intervalMs limit : Nat}
    {throttler : Throttler α}
    {downstream : Downstream}
    (hNew : Throttler.new name intervalMs limit = .ok throttler)
    (hTotal : downstream.refusal? = none)
    (turns : List (Turn α)) :
    ((new throttler downstream).takeAll turns).delivered.map
          Prod.fst ++
        ((new throttler downstream).takeAll
          turns).throttler.window.buffer =
      itemsSent turns ∧
      ∀ turn,
        isStarted (turns ++ [turn]) = false →
          ((new throttler downstream).takeAll
              (turns ++ [turn])).delivered =
            ((new throttler downstream).takeAll
              turns).delivered := by
  have hBefore := queues_takeAll hNew hTotal turns
  constructor
  · exact hBefore.fifo
  · intro turn hStopped
    have hAfter := queues_takeAll hNew hTotal (turns ++ [turn])
    have hShut := hAfter.started.running
    rw [hStopped] at hShut
    rw [takeAll_concat] at hShut ⊢
    rcases carries_take turn hBefore.total with
      ⟨base, passed, hCarries⟩
    rw [hCarries.delivered, hCarries.window.closed hShut]
    simp

/- A throttler that lets two numbers pass in a second. -/
def twoASecond : Throttler Nat where
  name := "orders"
  intervalMs := 1000
  window := Window.new 2 (by decide)
  timer := none
  intervalMs_pos := by decide

/-
  It is started twice and stopped, its window rolls over
  before it is started again, and then it is stopped while
  a number waits.
-/
def stopAndGo : List (Turn Nat) :=
  [.send 1, .start, .start, .send 2, .send 3, .stop, .roll,
    .start, .send 4, .send 5, .stop]

/-
  The numbers that pass are followed by the one that waits,
  and a rollover that comes after the stop lets none pass.
-/
theorem passed_append_waiting_eq_sent_stopAndGo :
    Throttler.new "orders" 1000 2 = .ok twoASecond ∧
      Downstream.consumer.refusal? = none ∧
      ((new twoASecond .consumer).takeAll stopAndGo).delivered.map
            Prod.fst ++
          ((new twoASecond .consumer).takeAll
            stopAndGo).throttler.window.buffer =
        [1, 2, 3, 4] ++ [5] ∧
      ((new twoASecond .consumer).takeAll
          (stopAndGo ++ [.roll])).delivered =
        [(1, 0), (2, 0), (3, 0), (4, 0)] := by
  have hNew : Throttler.new "orders" 1000 2 = .ok twoASecond := rfl
  have hTotal : Downstream.consumer.refusal? = none := rfl
  rcases passed_append_waiting_eq_sent hNew hTotal stopAndGo with
    ⟨hFifo, hStopped⟩
  exact ⟨hNew, hTotal, hFifo, hStopped .roll rfl⟩

end Line

end OrderDesk
