import Mathlib.Data.List.Basic
import OrderDesk.Mailbox.Probe
import OrderDesk.Proofs.Mailbox.Account

/-
  This file proves what a mailbox promises of messages:
  whoever sends them, and whenever its worker is started,
  goes on or is stopped, they are taken in the order in
  which they were accepted, and the state that is handed
  back is what the messages that were taken make of the
  state at first.

  Key definitions include:
    * `Phase.chores`
    * `MailboxRun.toil`
    * `Mailbox.IsFresh`
    * `Mailbox.Delivers`

  Key theorems include:
    * `MailboxRun.Sound.ends`
    * `MailboxRun.Sound.exists_served`
    * `Mailbox.sound_after`
    * `Mailbox.delivers`
-/

namespace OrderDesk

variable {ι S P K : Type}

------------------------------------------------------------
-- The End Of A Worker
------------------------------------------------------------

/- What is to happen until a worker that is told to stop ends. -/
def Phase.chores :
    Phase P K → List (MailboxAct ι P)
| .starting => [.work, .work]
| .awake => [.work]
| .resting _ _ => [.wake, .work, .work]
| .rested _ _ => [.work, .work]
| _ => []

/- Whatever a worker is doing, this is enough. -/
theorem Phase.chores_sublist
    (phase : Phase P K) :
    (phase.chores : List (MailboxAct ι P)).Sublist
      [.work, .wake, .work, .work] := by
  cases phase <;> simp [Phase.chores]

/- Something that a worker does. -/
def MailboxAct.isChore :
    MailboxAct ι P → Bool
| .work => true
| .wake => true
| _ => false

theorem Phase.isChore_of_chores
    {phase : Phase P K}
    {act : MailboxAct ι P}
    (hAct : phase.chores.head? = some act) :
    act.isChore = true := by
  cases phase <;> cases hAct <;> rfl

theorem Phase.chores_of_ne
    {phase : Phase P K}
    {act : MailboxAct ι P}
    {acts : List (MailboxAct ι P)}
    (hChores : phase.chores.Sublist (act :: acts))
    (hAct : phase.chores.head? ≠ some act) :
    phase.chores.Sublist acts := by
  cases hList : (phase.chores : List (MailboxAct ι P)) with
  | nil => exact List.nil_sublist acts
  | cons chore chores =>
      rw [hList] at hAct hChores
      refine hChores.of_cons_of_ne ?_
      rintro rfl
      exact hAct rfl

/- Nobody else does what a worker is to do. -/
theorem Phase.chores_of_not_isChore
    {phase : Phase P K}
    {act : MailboxAct ι P}
    {acts : List (MailboxAct ι P)}
    (hChores : phase.chores.Sublist (act :: acts))
    (hAct : act.isChore = false) :
    phase.chores.Sublist acts := by
  refine chores_of_ne hChores fun hHead => ?_
  rw [isChore_of_chores hHead] at hAct
  cases hAct

namespace MailboxRun

variable {run next : MailboxRun ι S P K}
variable {acts : List (MailboxAct ι P)}
variable {act : MailboxAct ι P}

section Ends

variable {source : Mailbox S P K}
variable [DecidableEq K]
variable [Payload P K]

/- Every turn leaves at most the chores that are left. -/
theorem chores_turn
    (hTurn : Turn run act next)
    (hFate : run.mailbox.phase.fate? = some .started)
    (hStop : run.mailbox.stopRequested = true)
    (hChores : run.mailbox.phase.chores.Sublist (act :: acts)) :
    next.mailbox.phase.chores.Sublist acts := by
  cases hTurn with
  | accepted sender envelope hAccepts =>
      exact Phase.chores_of_not_isChore hChores rfl
  | refused sender envelope hRefuses =>
      exact Phase.chores_of_not_isChore hChores rfl
  | started hPhase =>
      rw [hPhase] at hFate
      cases hFate
  | underway hPhase =>
      exact Phase.chores_of_not_isChore hChores rfl
  | commenced hPhase =>
      rw [hPhase] at hChores
      exact hChores.tail
  | took envelope queue step hPhase hGoesOn hQueue hTaken =>
      rw [hGoesOn] at hStop
      cases hStop
  | completed kind remainder hPhase =>
      rw [hPhase] at hChores
      exact hChores.tail
  | halted hPhase =>
      exact List.nil_sublist acts
  | waited hWaits =>
      refine Phase.chores_of_ne hChores ?_
      cases hPhase : run.mailbox.phase <;>
        simp [Phase.chores, Mailbox.step?, hPhase, hStop]
          at hWaits ⊢
  | woke kind remainder hPhase =>
      rw [hPhase] at hChores
      exact hChores.tail
  | unmoved hPhase =>
      refine Phase.chores_of_ne hChores ?_
      cases hKind : run.mailbox.phase <;>
        simp [Phase.chores, hKind] at hPhase ⊢
  | told => exact Phase.chores_of_not_isChore hChores rfl
  | givenUp hPhase => exact List.nil_sublist acts
  | released hPhase =>
      exact Phase.chores_of_not_isChore hChores rfl

/-
  A worker that is told to stop ends once all that is left
  to do has happened, whatever else happens in between.
-/
theorem Sound.ends
    (hSink : source.sink.IsSafe)
    (hSound : Sound source acts run)
    (hFate : fateOf? acts = some .started)
    (hTold : isTold acts = true)
    {more : List (MailboxAct ι P)}
    (hChores : run.mailbox.phase.chores.Sublist more) :
    (run.follow more).mailbox.phase.isOver = true := by
  have hPhase := hSound.stands.fate
  rw [hFate] at hPhase
  -- Every turn takes at most one chore off, never adds one.
  induction more generalizing acts run with
  | nil =>
      have hNone := List.sublist_nil.mp hChores
      cases hKind : run.mailbox.phase <;>
        simp [Phase.chores, Phase.fate?, Phase.isOver, follow,
          hKind] at hNone hPhase ⊢
  | cons act more ih =>
      have hNext := hSound.step hSink act
      have hNextFate := fateOf?_concat_of_started hFate act
      have hNextTold : isTold (acts ++ [act]) = true := by
        rw [isTold_append, hTold, Bool.true_or]
      have hTurn := hSound.turn hSink act
      have hLeft :=
        chores_turn hTurn hPhase (hSound.stopRequested hFate hTold)
          hChores
      exact
        ih hNext hNextFate hNextTold hLeft
          (hNext.stands.fate.trans hNextFate)

end Ends

end MailboxRun

------------------------------------------------------------
-- Workers That Go On
------------------------------------------------------------

/- How far a worker is from the next message. -/
def Phase.distance :
    Phase P K → Nat
| .starting => 1
| .resting _ _ => 2
| .rested _ _ => 1
| _ => 0

namespace MailboxRun

variable {run : MailboxRun ι S P K}
variable {acts : List (MailboxAct ι P)}

/-
  How much a worker is to do until no message waits. A
  message may need three things to happen: it is taken, the
  handler rests, and it comes to its end.
-/
def toil
    (run : MailboxRun ι S P K) : Nat :=
  3 * run.mailbox.queue.length + run.mailbox.phase.distance

section GoesOn

variable {source : Mailbox S P K}
variable [DecidableEq K]
variable [Payload P K]

/- A worker with messages that wait gets on with them. -/
theorem Sound.exists_toil_lt
    (hSink : source.sink.IsSafe)
    (hSound : Sound source acts run)
    (hFate : fateOf? acts = some .started)
    (hTold : isTold acts = false)
    (hQueue : run.mailbox.queue ≠ []) :
    ∃ act : MailboxAct ι P,
      act.isChore = true ∧ (run.act act).toil < run.toil := by
  rcases hSound.goesOn hTold with ⟨hGoesOn, hAccepts⟩
  have hPhaseFate := hSound.stands.fate.trans hFate
  cases hPhase : run.mailbox.phase with
  | created =>
      rw [hPhase] at hPhaseFate
      cases hPhaseFate
  | starting =>
      refine ⟨.work, rfl, ?_⟩
      simp [MailboxRun.act, toil, Mailbox.step?, hPhase,
        Mailbox.commence, Phase.distance]
  | awake =>
      refine ⟨.work, rfl, ?_⟩
      rcases List.exists_cons_of_ne_nil hQueue with
        ⟨envelope, queue, hCons⟩
      rw [← hSound.accounts.sink] at hSink
      rcases
        Mailbox.exists_taken hSink hPhase hGoesOn hCons with
        ⟨step, hStep, hTaken⟩
      have hDistance : step.mailbox.phase.distance ≤ 2 := by
        rcases hTaken.phase with hAwake | ⟨_, _, hResting⟩
        · rw [hAwake]
          exact Nat.zero_le 2
        · rw [hResting]
          exact Nat.le_refl 2
      simp only [MailboxRun.act, toil, hStep, hTaken.queue, hCons,
        List.length_cons]
      omega
  | resting kind remainder =>
      refine ⟨.wake, rfl, ?_⟩
      simp [MailboxRun.act, toil, Mailbox.wake, hPhase,
        Phase.distance]
  | rested kind remainder =>
      refine ⟨.work, rfl, ?_⟩
      simp [MailboxRun.act, toil, Mailbox.step?, hPhase,
        Mailbox.complete, Phase.distance]
  | stopped =>
      rw [hPhase] at hAccepts
      cases hAccepts
  | died =>
      rw [hPhase] at hAccepts
      cases hAccepts
  | dropped =>
      rw [hPhase] at hAccepts
      cases hAccepts

theorem accepted_act_of_isChore
    (run : MailboxRun ι S P K)
    {act : MailboxAct ι P}
    (hChore : act.isChore = true) :
    (run.act act).accepted = run.accepted := by
  cases act with
  | work =>
      unfold MailboxRun.act
      dsimp only
      split <;> rfl
  | wake => rfl
  | _ => cases hChore

theorem isSignal_of_isChore
    {act : MailboxAct ι P}
    (hChore : act.isChore = true) :
    act.isSignal = false := by
  cases act <;> cases hChore <;> rfl

/-
  A worker that goes on takes every message that was
  accepted, sooner or later.
-/
theorem Sound.exists_served
    (hSink : source.sink.IsSafe)
    (hSound : Sound source acts run)
    (hFate : fateOf? acts = some .started)
    (hTold : isTold acts = false) :
    ∃ more : List (MailboxAct ι P),
      (∀ act ∈ more, act.isChore = true) ∧
        (run.follow more).dispatched =
          run.accepted.map Prod.snd := by
  -- One thing that the worker does makes the toil less.
  induction hToil : run.toil using Nat.strongRecOn
    generalizing acts run with
  | _ toil ih =>
      by_cases hQueue : run.mailbox.queue = []
      · have hWaiting :=
          hSound.accounts.waiting (hSound.goesOn hTold).2
        rw [hQueue, List.append_nil] at hWaiting
        exact ⟨[], nofun, hWaiting.symm⟩
      · rcases hSound.exists_toil_lt hSink hFate hTold hQueue with
          ⟨act, hChore, hLess⟩
        have hNextTold : isTold (acts ++ [act]) = false := by
          rw [isTold_append, hTold]
          simp [isTold, isSignal_of_isChore hChore]
        rw [hToil] at hLess
        rcases
          ih _ hLess (hSound.step hSink act)
            (fateOf?_concat_of_started hFate act) hNextTold rfl with
          ⟨more, hMore, hServed⟩
        rw [accepted_act_of_isChore run hChore] at hServed
        refine ⟨act :: more, ?_, hServed⟩
        intro other hOther
        rcases List.mem_cons.mp hOther with rfl | hMem
        · exact hChore
        · exact hMore other hMem

end GoesOn

end MailboxRun

------------------------------------------------------------
-- Delivery
------------------------------------------------------------

namespace Mailbox

/- Nothing has happened to a mailbox since it was made. -/
structure IsFresh
    (mailbox : Mailbox S P K) : Prop where
  phase : mailbox.phase = .created
  queue : mailbox.queue = []
  stopRequested : mailbox.stopRequested = false

theorem isFresh_new
    (name : String)
    (state : S) :
    (new name state : Mailbox S P K).IsFresh :=
  ⟨rfl, rfl, rfl⟩

theorem IsFresh.register
    [DecidableEq K]
    {mailbox registered : Mailbox S P K}
    {handler : Handler S P K}
    (hFresh : mailbox.IsFresh)
    (hRegister : mailbox.register handler = .ok registered) :
    registered.IsFresh := by
  unfold Mailbox.register at hRegister
  cases hInsert : mailbox.registry.insert handler with
  | error refused =>
      rw [hInsert] at hRegister
      cases hRegister
  | ok registry =>
      rw [hInsert] at hRegister
      cases hRegister
      exact ⟨hFresh.phase, hFresh.queue, hFresh.stopRequested⟩

theorem IsFresh.replaceSink
    {mailbox : Mailbox S P K}
    (hFresh : mailbox.IsFresh)
    (dispose : Envelope P → Disposal P) :
    (mailbox.replaceSink dispose).IsFresh :=
  ⟨hFresh.phase, hFresh.queue, hFresh.stopRequested⟩

theorem IsFresh.modifyState
    {mailbox : Mailbox S P K}
    (hFresh : mailbox.IsFresh)
    (f : S → S) :
    (mailbox.modifyState f).IsFresh :=
  ⟨hFresh.phase, hFresh.queue, hFresh.stopRequested⟩

theorem isSome_outcome?
    (mailbox : Mailbox S P K) :
    mailbox.outcome?.isSome = mailbox.phase.isOver := by
  unfold outcome?
  cases mailbox.phase <;> rfl

variable [DecidableEq K]
variable [Payload P K]

/- A fresh mailbox after all that happens to it. -/
def after
    (mailbox : Mailbox S P K)
    (acts : List (MailboxAct ι P)) : MailboxRun ι S P K :=
  (MailboxRun.begin mailbox).follow acts

theorem after_append
    (mailbox : Mailbox S P K)
    (before later : List (MailboxAct ι P)) :
    mailbox.after (before ++ later) =
      (mailbox.after before).follow later :=
  MailboxRun.follow_append _ before later

/- A fresh mailbox with a safe sink has sound runs. -/
theorem sound_after
    {mailbox : Mailbox S P K}
    (hFresh : mailbox.IsFresh)
    (hSink : mailbox.sink.IsSafe)
    (acts : List (MailboxAct ι P)) :
    MailboxRun.Sound mailbox acts (mailbox.after acts) := by
  have hStart :
      MailboxRun.Sound mailbox ([] : List (MailboxAct ι P))
        (MailboxRun.begin mailbox) :=
    { stands :=
        { fate := by
            unfold MailboxRun.begin
            rw [hFresh.phase]
            rfl
          told := by
            unfold MailboxRun.begin
            rw [hFresh.phase, hFresh.stopRequested]
            simp [isTold, Phase.fate?] }
      admits := ⟨List.prefix_rfl, fun _ => rfl⟩
      accounts :=
        { registry := rfl
          sink := rfl
          ended := fun hOver => by
            unfold MailboxRun.begin at hOver
            rw [hFresh.phase] at hOver
            cases hOver
          taken := List.prefix_rfl
          waiting := fun _ => by
            unfold MailboxRun.begin
            rw [hFresh.queue]
            rfl
          idle := fun _ => rfl
          upshot := by
            unfold MailboxRun.begin
            rw [hFresh.phase]
            rfl } }
  exact
    MailboxRun.follow_induction (MailboxRun.Sound mailbox)
      (fun _ _ act hSound => hSound.step hSink act) hStart acts

/-
  What a mailbox promises of the messages that are sent to
  it by anybody, in whatever order things happen to it.

  Its worker takes messages in the order in which they were
  accepted, and those of each sender in the order in which
  that sender sent them. A message is accepted as long as
  the worker has not ended and the mailbox was not given up.
  What is accepted before the start is taken first. Once it
  is told to stop, the worker takes nothing more, but lets
  the handler at work come to its end.

  The state is what the messages that were taken have made
  of it. It is handed back when nothing is left undone, and
  what is left in the queue is gone by then. Until it is
  told to stop, no message is left out for ever.
-/
structure Delivers
    [DecidableEq ι]
    (mailbox : Mailbox S P K)
    (acts : List (MailboxAct ι P)) : Prop where
  inOrder :
    ∃ taken,
      taken <+: (mailbox.after acts).accepted ∧
        taken.map Prod.snd = (mailbox.after acts).dispatched ∧
          ∀ sender,
            (taken.filter fun sent => sent.1 = sender) <+:
              (sendsOf acts).filter fun sent => sent.1 = sender
  accepts :
    ∀ envelope,
      ((mailbox.after acts).mailbox.send? envelope).isSome =
          true ↔
        (mailbox.after acts).mailbox.outcome?.isNone = true ∧
          fateOf? acts ≠ some .givenUp
  earlyFirst :
    ∀ before later,
      acts = before ++ later →
        fateOf? before ≠ some .started →
          (mailbox.after before).dispatched = [] ∧
            ((mailbox.after acts).dispatched <+:
                (mailbox.after before).accepted.map Prod.snd ∨
              (mailbox.after before).accepted.map Prod.snd <+:
                (mailbox.after acts).dispatched)
  takesNoMore :
    ∀ before later,
      acts = before ++ later →
        isTold before = true →
          (mailbox.after acts).dispatched =
            (mailbox.after before).dispatched
  ends :
    ∀ before later,
      acts = before ++ later →
        fateOf? before = some .started →
          isTold before = true →
            [.work, .wake, .work, .work].Sublist later →
              (mailbox.after acts).mailbox.outcome?.isSome = true
  upshot :
    (⟨(mailbox.after acts).mailbox.state,
      (mailbox.after acts).mailbox.unhandled,
      (mailbox.after acts).effects ++
        (mailbox.after acts).mailbox.phase.pendingEffects⟩ :
        Upshot S P) =
      mailbox.upshot (mailbox.after acts).dispatched
  handsBack :
    ∀ outcome,
      (mailbox.after acts).mailbox.outcome? = some outcome →
        outcome =
            .ok (mailbox.upshot
              (mailbox.after acts).dispatched).state ∧
          (mailbox.after acts).mailbox.phase.pendingEffects = [] ∧
            (mailbox.after acts).mailbox.queue = [] ∧
              isTold acts = true
  leavesNoneOut :
    fateOf? acts = some .started →
      isTold acts = false →
        ∃ more : List (MailboxAct ι P),
          (∀ act ∈ more, act.isChore = true) ∧
            (mailbox.after (acts ++ more)).dispatched =
              (mailbox.after acts).accepted.map Prod.snd

/- Messages are taken in the order in which they were sent. -/
theorem exists_taken_prefix
    {source : Mailbox S P K}
    {acts : List (MailboxAct ι P)}
    {run : MailboxRun ι S P K}
    (hSound : MailboxRun.Sound source acts run) :
    ∃ taken,
      taken <+: run.accepted ∧
        taken.map Prod.snd = run.dispatched ∧
          ∀ picks : ι × Envelope P → Bool,
            taken.filter picks <+: (sendsOf acts).filter picks := by
  have hTake :
      run.dispatched =
        (run.accepted.map Prod.snd).take run.dispatched.length :=
    List.prefix_iff_eq_take.mp hSound.accounts.taken
  have hFirst :
      run.accepted.take run.dispatched.length <+: run.accepted :=
    List.take_prefix _ _
  refine ⟨_, hFirst, ?_, fun picks => ?_⟩
  · rw [List.map_take]
    exact hTake.symm
  · exact (hFirst.trans hSound.admits.first).filter picks

/- The receiver is there until it is gone. -/
theorem isSome_send?_iff
    {source : Mailbox S P K}
    {acts : List (MailboxAct ι P)}
    {run : MailboxRun ι S P K}
    (hSound : MailboxRun.Sound source acts run)
    (envelope : Envelope P) :
    (run.mailbox.send? envelope).isSome = true ↔
      run.mailbox.outcome?.isNone = true ∧
        fateOf? acts ≠ some .givenUp := by
  have hSend :
      (run.mailbox.send? envelope).isSome =
        run.mailbox.phase.accepts := by
    unfold send?
    cases run.mailbox.phase.accepts <;> rfl
  rw [hSend, Phase.accepts_eq_true_iff, hSound.stands.fate,
    ← isSome_outcome?, Option.isSome_eq_false_iff]

/- A worker ends in one way only, and leaves nothing undone. -/
theorem eq_of_outcome?
    {source : Mailbox S P K}
    {acts : List (MailboxAct ι P)}
    {run : MailboxRun ι S P K}
    (hSound : MailboxRun.Sound source acts run)
    {outcome : Except Shutdown S}
    (hOutcome : run.mailbox.outcome? = some outcome) :
    outcome = .ok run.mailbox.state ∧
      run.mailbox.phase.pendingEffects = [] ∧
        run.mailbox.queue = [] ∧
          isTold acts = true := by
  have hOver : run.mailbox.phase.isOver = true := by
    rw [← isSome_outcome?, hOutcome]
    rfl
  rcases hSound.accounts.ended hOver with ⟨hPhase, hStop, hQueue⟩
  unfold outcome? at hOutcome
  rw [hPhase] at hOutcome ⊢
  exact
    ⟨(Option.some.inj hOutcome).symm, rfl, hQueue,
      hSound.stands.told.mpr (.inl hStop)⟩

/- A fresh mailbox with a safe sink keeps its promise. -/
theorem delivers
    [DecidableEq ι]
    {mailbox : Mailbox S P K}
    (hFresh : mailbox.IsFresh)
    (hSink : mailbox.sink.IsSafe)
    (acts : List (MailboxAct ι P)) :
    mailbox.Delivers acts := by
  have hSound := sound_after hFresh hSink acts
  exact
    { inOrder := by
        rcases exists_taken_prefix hSound with
          ⟨taken, hTaken, hDispatched, hFilter⟩
        exact
          ⟨taken, hTaken, hDispatched, fun sender => hFilter _⟩
      accepts := isSome_send?_iff hSound
      earlyFirst := by
        rintro before later rfl hBefore
        have hEarly := sound_after hFresh hSink before
        rw [← hEarly.stands.fate] at hBefore
        refine ⟨hEarly.accounts.idle hBefore, ?_⟩
        have hLater :
            (mailbox.after before).accepted.map Prod.snd <+:
              (mailbox.after (before ++ later)).accepted.map
                Prod.snd := by
          rw [after_append]
          exact (MailboxRun.accepted_follow _ later).map _
        exact
          List.prefix_or_prefix_of_prefix hSound.accounts.taken
            hLater
      takesNoMore := by
        rintro before later rfl hTold
        have hEarly := sound_after hFresh hSink before
        rw [after_append]
        exact hEarly.dispatched_follow hSink hTold later
      ends := by
        rintro before later rfl hFate hTold hLater
        have hEarly := sound_after hFresh hSink before
        rw [after_append, isSome_outcome?]
        exact
          hEarly.ends hSink hFate hTold
            ((Phase.chores_sublist _).trans hLater)
      upshot := hSound.accounts.upshot
      handsBack := by
        intro outcome hOutcome
        rw [← hSound.accounts.upshot]
        exact eq_of_outcome? hSound hOutcome
      leavesNoneOut := by
        intro hFate hTold
        rcases hSound.exists_served hSink hFate hTold with
          ⟨more, hMore, hServed⟩
        refine ⟨more, hMore, ?_⟩
        rw [after_append]
        exact hServed }

/- A mailbox that writes pings down and rests for a second. -/
def slow : Except DuplicateHandler
    (Mailbox (List String) Probe ProbeKind) :=
  (new "slow" []).register
    (Script.handler ⟨.succeed, some 1000, none⟩ .ping)

/- A ping with a number. -/
def ping
    (value : Int) : Envelope Probe :=
  .command ⟨Uuid.ofNat 1, ⟨1, 0⟩⟩ ⟨.ping, value⟩

/-
  Two senders send pings before the start, while the worker
  rests, after it is told to stop, and when it has ended.
-/
def slowActs : List (MailboxAct Nat Probe) :=
  [.send 0 (ping 1), .start, .work, .work, .send 1 (ping 2),
    .stop, .send 0 (ping 3), .work, .wake, .work, .work,
    .send 1 (ping 4)]

/- The ping at work comes to its end, and the others are lost. -/
theorem delivers_slow :
    ∃ mailbox,
      slow = .ok mailbox ∧
        mailbox.IsFresh ∧
          mailbox.sink.IsSafe ∧
            mailbox.Delivers slowActs ∧
              (mailbox.after slowActs).accepted =
                  [(0, ping 1), (1, ping 2), (0, ping 3)] ∧
                (mailbox.after slowActs).dispatched = [ping 1] ∧
                  (mailbox.after slowActs).effects =
                      [.note "begin Ping:1" none,
                        .note "end Ping:1" none] ∧
                    (mailbox.after slowActs).mailbox.outcome? =
                      some (.ok ["Ping:1"]) := by
  have hFresh := (isFresh_new "slow" []).register (rfl : slow = _)
  exact
    ⟨_, rfl, hFresh, trivial, delivers hFresh trivial slowActs,
      by decide +kernel, by decide +kernel, by decide +kernel,
      by decide +kernel⟩

end Mailbox

end OrderDesk
