import Mathlib.Data.List.Basic
import Mathlib.Data.List.Induction
import OrderDesk.Mailbox.Probe
import OrderDesk.Proofs.Mailbox.Delivery
import OrderDesk.Proofs.Mailbox.Invocation

/-
  This file proves how far the faults of handlers reach.
  However handlers end, every message that is taken finds
  what the messages before it made of the state, and leads
  to the invocation that it leads to if nobody is at fault.

  Only the sink for unhandled messages can end a worker that
  is not told to stop. The proof compares a mailbox with the
  same mailbox whose sink is calmed: both do the same until
  a message is fatal, and nothing happens after that.

  Key definitions include:
    * `Mailbox.IsFatal`
    * `Mailbox.EndsFatally`
    * `Mailbox.invocations`
    * `Mailbox.Thrives`
    * `Mailbox.Perishes`
    * `Mailbox.IsolatesFaults`

  Key theorems include:
    * `MailboxRun.act_calmed`
    * `MailboxRun.follow_of_died`
    * `Mailbox.thrives_or_perishes`
    * `Mailbox.isolatesFaults`
-/

namespace OrderDesk

variable {ι S P K : Type}

------------------------------------------------------------
-- Fatal Messages
------------------------------------------------------------

namespace Sink

/- The same sink, but it never panics. -/
def calmed :
    Sink P → Sink P
| .collect => .collect
| .custom dispose =>
    .custom fun envelope =>
      { dispose envelope with panics := false }

/- A sink is safe once it is calmed. -/
theorem isSafe_calmed
    (sink : Sink P) :
    sink.calmed.IsSafe := by
  cases sink with
  | collect => trivial
  | custom dispose => exact fun _ => rfl

end Sink

theorem Phase.mapEnding_id
    (phase : Phase P K) :
    phase.mapEnding id = phase := by
  cases phase <;> rfl

namespace Mailbox

/- How a mailbox looks when its sink is calmed. -/
def calm
    (mailbox : Mailbox S P K) : Guise S P K :=
  ⟨mailbox.registry, mailbox.sink.calmed, id⟩

/- The same mailbox with its sink calmed. -/
def calmed
    (mailbox : Mailbox S P K) : Mailbox S P K :=
  mailbox.inGuise mailbox.calm id

/- To calm the sink leaves the worker alone. -/
theorem phase_calmed
    (mailbox : Mailbox S P K) :
    mailbox.calmed.phase = mailbox.phase :=
  mailbox.phase.mapEnding_id

/- What is left of the worker is the same. -/
theorem outcome?_calmed
    (mailbox : Mailbox S P K) :
    mailbox.calmed.outcome? = mailbox.outcome? := by
  unfold outcome?
  rw [phase_calmed]
  rfl

theorem IsFresh.calmed
    {mailbox : Mailbox S P K}
    (hFresh : mailbox.IsFresh) :
    mailbox.calmed.IsFresh :=
  ⟨mailbox.phase_calmed.trans hFresh.phase, hFresh.queue,
    hFresh.stopRequested⟩

/- A worker that takes a message next goes on. -/
theorem awake_of_next?
    {mailbox : Mailbox S P K}
    {envelope : Envelope P}
    (hNext : mailbox.next? = some envelope) :
    mailbox.phase = .awake ∧
      mailbox.stopRequested = false ∧
        ∃ queue, mailbox.queue = envelope :: queue := by
  unfold next? at hNext
  split at hNext
  · rename_i hPhase
    split at hNext
    · cases hNext
    · rename_i hGoesOn
      exact
        ⟨hPhase, Bool.eq_false_iff.mpr hGoesOn,
          List.head?_eq_some_iff.mp hNext⟩
  · cases hNext

section Fatal

variable [DecidableEq K]
variable [Payload P K]

/-
  A message is fatal in a state: nobody handles it, and the
  sink panics when it is given what is handed back.
-/
def IsFatal
    (mailbox : Mailbox S P K)
    (state : S)
    (envelope : Envelope P) : Prop :=
  ∃ back dispose,
    mailbox.registry.dispatch state envelope = .error back ∧
      mailbox.sink = .custom dispose ∧
        (dispose back).panics = true

/- The last of the messages is fatal. -/
def EndsFatally
    (mailbox : Mailbox S P K)
    (envelopes : List (Envelope P)) : Prop :=
  ∃ served envelope,
    envelopes = served ++ [envelope] ∧
      mailbox.IsFatal (mailbox.upshot served).state envelope

theorem absorb_calmed
    (mailbox : Mailbox S P K) :
    mailbox.calmed.absorb = mailbox.absorb := by
  have hRegistry : mailbox.calmed.registry = mailbox.registry := rfl
  have hSink : mailbox.calmed.sink = mailbox.sink.calmed := rfl
  funext upshot envelope
  unfold absorb
  rw [hRegistry, hSink]
  cases mailbox.sink <;> rfl

/- And so it is for all of them. -/
theorem upshot_calmed
    (mailbox : Mailbox S P K)
    (envelopes : List (Envelope P)) :
    mailbox.calmed.upshot envelopes = mailbox.upshot envelopes := by
  unfold upshot
  rw [absorb_calmed]
  rfl

/- A fatal message leaves the state alone. -/
theorem IsFatal.state_absorb
    {mailbox : Mailbox S P K}
    {upshot : Upshot S P}
    {envelope : Envelope P}
    (hFatal : mailbox.IsFatal upshot.state envelope) :
    (mailbox.absorb upshot envelope).state = upshot.state := by
  rcases hFatal with ⟨back, dispose, hDispatch, hSink, hPanics⟩
  unfold absorb
  rw [hDispatch, hSink]

/- A fatal message kills the worker, and the queue is lost. -/
theorem IsFatal.take
    {mailbox : Mailbox S P K}
    {envelope : Envelope P}
    (hFatal : mailbox.IsFatal mailbox.state envelope) :
    (mailbox.take envelope).mailbox =
      { mailbox with queue := [], phase := .died } := by
  rcases hFatal with ⟨back, dispose, hDispatch, hSink, hPanics⟩
  unfold Mailbox.take
  rw [hDispatch]
  unfold discard
  rw [hSink]
  dsimp only
  rw [hPanics]
  rfl

theorem take_calmed
    {mailbox : Mailbox S P K}
    {envelope : Envelope P}
    (hSpared : ¬ mailbox.IsFatal mailbox.state envelope) :
    (mailbox.take envelope).MatchesInGuise mailbox.calm id
      (mailbox.calmed.take envelope) := by
  refine take_inGuise ?_ ?_
  · change mailbox.registry.dispatch mailbox.state envelope = _
    cases mailbox.registry.dispatch mailbox.state envelope <;> rfl
  · intro back hBack
    refine ⟨rfl, ?_⟩
    change mailbox.sink.calmed.disposal? back = _
    cases hSink : mailbox.sink with
    | collect => rfl
    | custom dispose =>
        have hSafe : (dispose back).panics = false :=
          Bool.eq_false_iff.mpr fun hPanics =>
            hSpared ⟨back, dispose, hBack, hSink, hPanics⟩
        simp only [Sink.calmed, Sink.disposal?, ← hSafe]

end Fatal

end Mailbox

namespace MailboxRun

/- The same run of the mailbox with its sink calmed. -/
def calmed
    (run : MailboxRun ι S P K) : MailboxRun ι S P K :=
  run.inGuise run.mailbox.calm id

variable {run : MailboxRun ι S P K}
variable [DecidableEq K]
variable [Payload P K]

/- The same happens if no fatal message is taken. -/
theorem act_calmed
    {act : MailboxAct ι P}
    (hSpared :
      ∀ envelope,
        run.takes? act = some envelope →
          ¬ run.mailbox.IsFatal run.mailbox.state envelope) :
    run.calmed.act act = (run.act act).calmed := by
  have hGuise : (run.act act).mailbox.calm = run.mailbox.calm := by
    unfold Mailbox.calm
    rw [(run.keeps_act act).1, (run.keeps_act act).2]
  unfold calmed
  rw [hGuise]
  refine act_inGuise (fun _ => rfl) fun envelope hTakes => ?_
  have hNotFatal :
      ¬ ({ run.mailbox with
            queue := run.mailbox.queue.tail } :
          Mailbox S P K).IsFatal run.mailbox.state envelope :=
    hSpared envelope hTakes
  exact Mailbox.take_calmed hNotFatal

/- A fatal message kills the worker when it is taken. -/
theorem work_of_isFatal
    {envelope : Envelope P}
    (hNext : run.mailbox.next? = some envelope)
    (hFatal : run.mailbox.IsFatal run.mailbox.state envelope) :
    (run.act .work).mailbox =
      { run.mailbox with queue := [], phase := .died } := by
  rcases Mailbox.awake_of_next? hNext with
    ⟨hPhase, hGoesOn, queue, hQueue⟩
  have hStep := Mailbox.step?_of_awake hPhase hGoesOn hQueue
  have hTake :
      ({ run.mailbox with queue := queue }.take envelope).mailbox =
        { run.mailbox with queue := [], phase := .died } :=
    Mailbox.IsFatal.take hFatal
  unfold MailboxRun.act
  rw [hStep]
  exact hTake

theorem act_of_died
    (hDied : run.mailbox.phase = .died)
    (act : MailboxAct ι P) :
    run.act act =
      { run with
        mailbox :=
          { run.mailbox with
            stopRequested :=
              run.mailbox.stopRequested || act.isSignal } } := by
  rcases run with ⟨⟨_, _, _, _, _, phase, _⟩, _, _, _⟩
  cases hDied
  cases act <;>
    simp [MailboxRun.act, MailboxAct.isSignal, Mailbox.send?,
      Phase.accepts, Mailbox.start, Mailbox.step?, Mailbox.wake,
      Mailbox.requestStop, Mailbox.drop]

/- And so it is for ever. -/
theorem follow_of_died
    (hDied : run.mailbox.phase = .died)
    (acts : List (MailboxAct ι P)) :
    run.follow acts =
      { run with
        mailbox :=
          { run.mailbox with
            stopRequested :=
              run.mailbox.stopRequested || isTold acts } } := by
  induction acts generalizing run with
  | nil => simp [follow, isTold]
  | cons act acts ih =>
      have hAct := act_of_died hDied act
      have hStill : (run.act act).mailbox.phase = .died := by
        rw [hAct]
        exact hDied
      have hRest := ih hStill
      rw [hAct] at hRest
      change (run.act act).follow acts = _
      rw [hAct, hRest]
      simp [isTold, Bool.or_assoc]

end MailboxRun

------------------------------------------------------------
-- Workers That Thrive Or Perish
------------------------------------------------------------

namespace Mailbox

section Faults

variable {mailbox : Mailbox S P K}
variable {acts : List (MailboxAct ι P)}
variable [DecidableEq K]
variable [Payload P K]

theorem after_concat
    (mailbox : Mailbox S P K)
    (acts : List (MailboxAct ι P))
    (act : MailboxAct ι P) :
    mailbox.after (acts ++ [act]) = (mailbox.after acts).act act :=
  mailbox.after_append acts [act]

/-
  No message that was taken was fatal, and everything is as
  if the sink were calmed.
-/
structure Thrives
    (mailbox : Mailbox S P K)
    (acts : List (MailboxAct ι P)) : Prop where
  calmed : (mailbox.after acts).calmed = mailbox.calmed.after acts
  spared :
    ∀ served envelope,
      served ++ [envelope] <+: (mailbox.after acts).dispatched →
        ¬ mailbox.IsFatal (mailbox.upshot served).state envelope

/- The worker thrives, and the message that comes next is fatal. -/
structure Perishes
    (mailbox : Mailbox S P K)
    (acts : List (MailboxAct ι P))
    (envelope : Envelope P) : Prop where
  thrives : mailbox.Thrives acts
  next : (mailbox.after acts).mailbox.next? = some envelope
  fatal :
    mailbox.IsFatal
      (mailbox.upshot (mailbox.after acts).dispatched).state envelope

/- The run of a worker that thrives is sound. -/
theorem Thrives.sound
    (hThrives : mailbox.Thrives acts)
    (hFresh : mailbox.IsFresh) :
    MailboxRun.Sound mailbox.calmed acts
      (mailbox.after acts).calmed := by
  rw [hThrives.calmed]
  exact
    sound_after hFresh.calmed mailbox.sink.isSafe_calmed acts

/- The state is what the messages have made of it. -/
theorem Thrives.state
    (hThrives : mailbox.Thrives acts)
    (hFresh : mailbox.IsFresh) :
    (mailbox.after acts).mailbox.state =
      (mailbox.upshot (mailbox.after acts).dispatched).state := by
  have hUpshot := (hThrives.sound hFresh).accounts.upshot
  rw [upshot_calmed] at hUpshot
  exact congrArg Upshot.state hUpshot

theorem keeps_after
    (mailbox : Mailbox S P K)
    (acts : List (MailboxAct ι P)) :
    (mailbox.after acts).mailbox.registry = mailbox.registry ∧
      (mailbox.after acts).mailbox.sink = mailbox.sink :=
  (MailboxRun.begin mailbox).keeps_follow acts

/- Messages stay fatal as long as the handlers are there. -/
theorem isFatal_after_iff
    (mailbox : Mailbox S P K)
    (acts : List (MailboxAct ι P))
    (state : S)
    (envelope : Envelope P) :
    (mailbox.after acts).mailbox.IsFatal state envelope ↔
      mailbox.IsFatal state envelope := by
  unfold IsFatal
  rw [(mailbox.keeps_after acts).1, (mailbox.keeps_after acts).2]

theorem thrives_nil
    (mailbox : Mailbox S P K) :
    mailbox.Thrives ([] : List (MailboxAct ι P)) where
  calmed := rfl
  spared served envelope hPrefix := by
    have hNil := List.prefix_nil.mp hPrefix
    simp at hNil

/- It goes on to thrive unless it takes a fatal message. -/
theorem Thrives.concat
    (hThrives : mailbox.Thrives acts)
    (hFresh : mailbox.IsFresh)
    {act : MailboxAct ι P}
    (hSpared :
      ∀ envelope,
        (mailbox.after acts).takes? act = some envelope →
          ¬ mailbox.IsFatal (mailbox.after acts).mailbox.state
            envelope) :
    mailbox.Thrives (acts ++ [act]) where
  calmed := by
    rw [after_concat, after_concat, ← hThrives.calmed]
    refine (MailboxRun.act_calmed fun envelope hTakes => ?_).symm
    rw [isFatal_after_iff]
    exact hSpared envelope hTakes
  spared served envelope hPrefix := by
    rw [after_concat, MailboxRun.dispatched_act_eq] at hPrefix
    cases hTakes : (mailbox.after acts).takes? act with
    | none =>
        rw [hTakes, Option.toList_none, List.append_nil] at hPrefix
        exact hThrives.spared served envelope hPrefix
    | some taken =>
        rw [hTakes, Option.toList_some, List.prefix_concat_iff]
          at hPrefix
        rcases hPrefix with hLast | hEarlier
        · rcases List.append_inj' hLast rfl with ⟨rfl, hSame⟩
          cases hSame
          rw [← hThrives.state hFresh]
          exact hSpared envelope hTakes
        · exact hThrives.spared served envelope hEarlier

/- A worker thrives until it takes a fatal message, if it does. -/
theorem thrives_or_perishes
    (hFresh : mailbox.IsFresh)
    (acts : List (MailboxAct ι P)) :
    mailbox.Thrives acts ∨
      ∃ before later envelope,
        acts = before ++ .work :: later ∧
          mailbox.Perishes before envelope := by
  induction acts using List.reverseRecOn with
  | nil => exact .inl mailbox.thrives_nil
  | append_singleton acts act ih =>
      rcases ih with
        hThrives | ⟨before, later, envelope, rfl, hPerishes⟩
      · by_cases hFatal :
            ∃ envelope,
              (mailbox.after acts).takes? act = some envelope ∧
                mailbox.IsFatal (mailbox.after acts).mailbox.state
                  envelope
        · rcases hFatal with ⟨envelope, hTakes, hFatal⟩
          rw [hThrives.state hFresh] at hFatal
          right
          cases act with
          | work =>
              exact
                ⟨acts, [], envelope, rfl, hThrives, hTakes, hFatal⟩
          | _ => cases hTakes
        · left
          refine hThrives.concat hFresh fun envelope hTakes => ?_
          exact fun hKills => hFatal ⟨envelope, hTakes, hKills⟩
      · exact
          .inr ⟨before, later ++ [act], envelope, by simp,
            hPerishes⟩

/- A worker that perishes is dead from then on. -/
theorem Perishes.after
    {envelope : Envelope P}
    (hPerishes : mailbox.Perishes acts envelope)
    (hFresh : mailbox.IsFresh)
    (later : List (MailboxAct ι P)) :
    ∃ stopRequested,
      (mailbox.after (acts ++ .work :: later)).mailbox =
          { (mailbox.after acts).mailbox with
            queue := []
            phase := .died
            stopRequested := stopRequested } ∧
        (mailbox.after (acts ++ .work :: later)).accepted =
            (mailbox.after acts).accepted ∧
          (mailbox.after (acts ++ .work :: later)).dispatched =
            (mailbox.after acts).dispatched ++ [envelope] := by
  have hFatal :
      (mailbox.after acts).mailbox.IsFatal
        (mailbox.after acts).mailbox.state envelope := by
    rw [isFatal_after_iff, hPerishes.thrives.state hFresh]
    exact hPerishes.fatal
  have hDies := MailboxRun.work_of_isFatal hPerishes.next hFatal
  have hDispatched :=
    (mailbox.after acts).dispatched_act_eq .work
  have hTakes :
      (mailbox.after acts).takes? .work = some envelope :=
    hPerishes.next
  rw [hTakes] at hDispatched
  have hLater :=
    MailboxRun.follow_of_died
      (congrArg Mailbox.phase hDies) later
  have hAfter :
      mailbox.after (acts ++ .work :: later) =
        ((mailbox.after acts).act .work).follow later :=
    mailbox.after_append acts (.work :: later)
  rw [hAfter, hLater, hDies]
  exact
    ⟨_, rfl, MailboxRun.accepted_act_of_isChore _ rfl, hDispatched⟩

/- The state after a fatal message is the state before it. -/
theorem Perishes.state
    {envelope : Envelope P}
    (hPerishes : mailbox.Perishes acts envelope)
    (hFresh : mailbox.IsFresh) :
    (mailbox.after acts).mailbox.state =
      (mailbox.upshot
        ((mailbox.after acts).dispatched ++ [envelope])).state := by
  rw [upshot_concat, hPerishes.fatal.state_absorb]
  exact hPerishes.thrives.state hFresh

/- Whatever happens, the state is what comes of the messages. -/
theorem state_after
    (hFresh : mailbox.IsFresh)
    (acts : List (MailboxAct ι P)) :
    (mailbox.after acts).mailbox.state =
      (mailbox.upshot (mailbox.after acts).dispatched).state := by
  rcases thrives_or_perishes hFresh acts with
    hThrives | ⟨before, later, envelope, rfl, hPerishes⟩
  · exact hThrives.state hFresh
  · rcases hPerishes.after hFresh later with
      ⟨stopRequested, hMailbox, hAccepted, hDispatched⟩
    rw [hMailbox, hDispatched]
    exact hPerishes.state hFresh

/- The last message of a worker that perishes is fatal. -/
theorem Perishes.endsFatally
    {envelope : Envelope P}
    (hPerishes : mailbox.Perishes acts envelope)
    (hFresh : mailbox.IsFresh)
    (later : List (MailboxAct ι P)) :
    mailbox.EndsFatally
      (mailbox.after (acts ++ .work :: later)).dispatched := by
  rcases hPerishes.after hFresh later with
    ⟨stopRequested, hMailbox, hAccepted, hDispatched⟩
  exact ⟨_, envelope, hDispatched, hPerishes.fatal⟩

/- The last message of a worker that thrives is not fatal. -/
theorem Thrives.not_endsFatally
    (hThrives : mailbox.Thrives acts) :
    ¬ mailbox.EndsFatally (mailbox.after acts).dispatched := by
  rintro ⟨served, envelope, hDispatched, hFatal⟩
  refine hThrives.spared served envelope ?_ hFatal
  exact hDispatched ▸ List.prefix_rfl

/- A worker takes messages in the order in which they come in. -/
theorem dispatched_inOrder
    (hFresh : mailbox.IsFresh)
    (acts : List (MailboxAct ι P)) :
    (mailbox.after acts).dispatched <+:
      (mailbox.after acts).accepted.map Prod.snd := by
  rcases thrives_or_perishes hFresh acts with
    hThrives | ⟨before, later, envelope, rfl, hPerishes⟩
  · exact (hThrives.sound hFresh).accounts.taken
  · rcases hPerishes.after hFresh later with
      ⟨stopRequested, hMailbox, hAccepted, hDispatched⟩
    rcases awake_of_next? hPerishes.next with
      ⟨hPhase, hGoesOn, queue, hQueue⟩
    have hAccepts :
        (mailbox.after before).calmed.mailbox.phase.accepts =
          true := by
      have hSame := (mailbox.after before).mailbox.phase_calmed
      exact (congrArg Phase.accepts (hSame.trans hPhase)).trans rfl
    have hWaiting :=
      (hPerishes.thrives.sound hFresh).accounts.waiting hAccepts
    change
      (mailbox.after before).accepted.map Prod.snd =
        (mailbox.after before).dispatched ++
          (mailbox.after before).mailbox.queue at hWaiting
    rw [hAccepted, hDispatched, hWaiting, hQueue]
    exact ⟨queue, by simp⟩

/- What is accepted are the first messages that are sent. -/
theorem accepted_inOrder
    (hFresh : mailbox.IsFresh)
    (acts : List (MailboxAct ι P)) :
    (mailbox.after acts).accepted <+: sendsOf acts := by
  rcases thrives_or_perishes hFresh acts with
    hThrives | ⟨before, later, envelope, rfl, hPerishes⟩
  · exact (hThrives.sound hFresh).admits.first
  · rcases hPerishes.after hFresh later with
      ⟨stopRequested, hMailbox, hAccepted, hDispatched⟩
    rw [hAccepted]
    refine
      (hPerishes.thrives.sound hFresh).admits.first.trans ?_
    unfold sendsOf
    rw [List.filterMap_append]
    exact List.prefix_append _ _

/- A worker that thrives ends well, and only if it is told to. -/
theorem Thrives.eq_of_outcome?
    (hThrives : mailbox.Thrives acts)
    (hFresh : mailbox.IsFresh)
    {outcome : Except Shutdown S}
    (hOutcome :
      (mailbox.after acts).mailbox.outcome? = some outcome) :
    outcome =
        .ok (mailbox.upshot (mailbox.after acts).dispatched).state ∧
      isTold acts = true := by
  have hCalmed :
      (mailbox.after acts).calmed.mailbox.outcome? =
        some outcome :=
    (outcome?_calmed _).trans hOutcome
  have hEnded :=
    Mailbox.eq_of_outcome? (hThrives.sound hFresh) hCalmed
  refine ⟨?_, hEnded.2.2.2⟩
  rw [hEnded.1, ← hThrives.state hFresh]
  rfl

/- A worker that thrives is as far as it is with a calmed sink. -/
theorem Thrives.phase
    (hThrives : mailbox.Thrives acts) :
    (mailbox.calmed.after acts).mailbox.phase =
      (mailbox.after acts).mailbox.phase := by
  rw [← hThrives.calmed]
  exact phase_calmed _

------------------------------------------------------------
-- Invocations Of Runs
------------------------------------------------------------

/-
  What messages lead to if they are handled one after the
  other: each one leads to one invocation, if anybody
  handles it, which finds what came of the ones before.
-/
def invocations
    (mailbox : Mailbox S P K)
    (envelopes : List (Envelope P)) : List (Invocation S P K) :=
  envelopes.zipIdx.filterMap fun (envelope, place) =>
    mailbox.registry.invocation?
      (mailbox.upshot (envelopes.take place)).state envelope

/- The last message leads to the last invocation. -/
theorem invocations_concat
    (mailbox : Mailbox S P K)
    (envelopes : List (Envelope P))
    (envelope : Envelope P) :
    mailbox.invocations (envelopes ++ [envelope]) =
      mailbox.invocations envelopes ++
        (mailbox.registry.invocation?
          (mailbox.upshot envelopes).state envelope).toList := by
  unfold invocations
  rw [List.zipIdx_append, List.filterMap_append]
  congr 1
  · refine List.filterMap_congr fun (other, place) hMem => ?_
    have hPlace : place < envelopes.length := by
      have hBound := List.snd_lt_of_mem_zipIdx hMem
      simpa using hBound
    dsimp only
    rw [List.take_append_of_le_length (Nat.le_of_lt hPlace)]
  · cases hInvocation :
      mailbox.registry.invocation? (mailbox.upshot envelopes).state
        envelope <;>
      simp [hInvocation]

/- Every message leads to its invocation, however handlers end. -/
theorem after_watched
    (hFresh : mailbox.IsFresh)
    (endings : Ending → Ending)
    (acts : List (MailboxAct ι P)) :
    (mailbox.watched endings []).after acts =
      (mailbox.after acts).watched endings
        (mailbox.invocations (mailbox.after acts).dispatched) := by
  induction acts using List.reverseRecOn with
  | nil => rfl
  | append_singleton acts act ih =>
      rw [after_concat, after_concat, ih, MailboxRun.act_watched,
        MailboxRun.dispatched_act_eq]
      unfold MailboxRun.invocation?
      cases (mailbox.after acts).takes? act with
      | none =>
          rw [Option.bind_none, Option.toList_none,
            Option.toList_none, List.append_nil, List.append_nil]
      | some envelope =>
          rw [Option.bind_some, Option.toList_some,
            invocations_concat, (mailbox.keeps_after acts).1,
            state_after hFresh]

------------------------------------------------------------
-- Isolation
------------------------------------------------------------

/-
  How far faults reach, in whatever order things happen to a
  mailbox and whatever its handlers and its sink do.

  The worker takes the messages in the order in which they
  were sent. The state is what the messages that were taken
  have made of it, whether or not their handlers were at
  fault. If handlers write down what they are invoked with,
  then every message that was taken has led to its own
  invocation, once and in order, and it is the same if the
  handlers end in any other way.

  The worker ends before it is told to only if a message is
  fatal. Then that message is the last one: nothing is taken
  or accepted any more, and there is no state to hand back.
  In all other cases a worker that is told to stop hands the
  state back once it was given time, and one that is not
  told to stop can take all that was accepted.
-/
structure IsolatesFaults
    (mailbox : Mailbox S P K)
    (acts : List (MailboxAct ι P)) : Prop where
  inOrder :
    (mailbox.after acts).dispatched <+:
        (mailbox.after acts).accepted.map Prod.snd ∧
      (mailbox.after acts).accepted <+: sendsOf acts
  state :
    (mailbox.after acts).mailbox.state =
      (mailbox.upshot (mailbox.after acts).dispatched).state
  invokes :
    ∀ endings : Ending → Ending,
      (mailbox.watched endings []).after acts =
        (mailbox.after acts).watched endings
          (mailbox.invocations (mailbox.after acts).dispatched)
  ends :
    ∀ outcome,
      (mailbox.after acts).mailbox.outcome? = some outcome →
        (outcome = .error ⟨mailbox.name⟩ ∧
          mailbox.EndsFatally (mailbox.after acts).dispatched) ∨
        (outcome =
            .ok (mailbox.upshot
              (mailbox.after acts).dispatched).state ∧
          isTold acts = true ∧
            ¬ mailbox.EndsFatally (mailbox.after acts).dispatched)
  dies :
    mailbox.EndsFatally (mailbox.after acts).dispatched →
      ∀ later,
        (mailbox.after (acts ++ later)).mailbox.outcome? =
            some (.error ⟨mailbox.name⟩) ∧
          (mailbox.after (acts ++ later)).dispatched =
              (mailbox.after acts).dispatched ∧
            (mailbox.after (acts ++ later)).accepted =
                (mailbox.after acts).accepted ∧
              ∀ envelope,
                (mailbox.after (acts ++ later)).mailbox.send?
                  envelope = none
  fatalLast :
    ∀ served envelope,
      served ++ [envelope] <+: (mailbox.after acts).dispatched →
        mailbox.IsFatal (mailbox.upshot served).state envelope →
          served ++ [envelope] = (mailbox.after acts).dispatched
  stops :
    ∀ before later,
      acts = before ++ later →
        fateOf? before = some .started →
          isTold before = true →
            [.work, .wake, .work, .work].Sublist later →
              ¬ mailbox.EndsFatally
                  (mailbox.after acts).dispatched →
                (mailbox.after acts).mailbox.outcome? =
                  some (.ok (mailbox.upshot
                    (mailbox.after acts).dispatched).state)
  leavesNoneOut :
    fateOf? acts = some .started →
      isTold acts = false →
        ∃ more : List (MailboxAct ι P),
          (∀ act ∈ more, act.isChore = true) ∧
            ((mailbox.after (acts ++ more)).dispatched =
                (mailbox.after acts).accepted.map Prod.snd ∨
              mailbox.EndsFatally
                (mailbox.after (acts ++ more)).dispatched)

/- A worker that perishes leaves no state. -/
theorem Perishes.dead
    {envelope : Envelope P}
    (hPerishes : mailbox.Perishes acts envelope)
    (hFresh : mailbox.IsFresh)
    (later : List (MailboxAct ι P)) :
    (mailbox.after (acts ++ .work :: later)).mailbox.outcome? =
        some (.error ⟨mailbox.name⟩) ∧
      ∀ other,
        (mailbox.after (acts ++ .work :: later)).mailbox.send?
          other = none := by
  rcases hPerishes.after hFresh later with
    ⟨stopRequested, hMailbox, hAccepted, hDispatched⟩
  have hName :
      (mailbox.after acts).mailbox.name = mailbox.name :=
    congrArg Registry.component (mailbox.keeps_after acts).1
  rw [hMailbox, ← hName]
  exact ⟨rfl, fun _ => rfl⟩

/- A worker that ends with a fatal message has perished. -/
theorem exists_perishes
    (hFresh : mailbox.IsFresh)
    (hEnds : mailbox.EndsFatally (mailbox.after acts).dispatched) :
    ∃ before later envelope,
      acts = before ++ .work :: later ∧
        mailbox.Perishes before envelope := by
  rcases thrives_or_perishes hFresh acts with
    hThrives | hPerishes
  · exact absurd hEnds hThrives.not_endsFatally
  · exact hPerishes

/- Fresh mailboxes isolate the faults of their handlers. -/
theorem isolatesFaults
    (hFresh : mailbox.IsFresh)
    (acts : List (MailboxAct ι P)) :
    mailbox.IsolatesFaults acts where
  inOrder :=
    ⟨dispatched_inOrder hFresh acts, accepted_inOrder hFresh acts⟩
  state := state_after hFresh acts
  invokes endings := after_watched hFresh endings acts
  ends := by
    intro outcome hOutcome
    rcases thrives_or_perishes hFresh acts with
      hThrives | ⟨before, later, envelope, rfl, hPerishes⟩
    · right
      rcases hThrives.eq_of_outcome? hFresh hOutcome with
        ⟨hOk, hTold⟩
      exact ⟨hOk, hTold, hThrives.not_endsFatally⟩
    · left
      rw [(hPerishes.dead hFresh later).1] at hOutcome
      exact
        ⟨(Option.some.inj hOutcome).symm,
          hPerishes.endsFatally hFresh later⟩
  dies := by
    intro hEnds later
    rcases exists_perishes hFresh hEnds with
      ⟨before, between, envelope, rfl, hPerishes⟩
    have hSplit :
        (before ++ .work :: between) ++ later =
          before ++ .work :: (between ++ later) := by
      simp
    have hDead := hPerishes.dead hFresh (between ++ later)
    rcases hPerishes.after hFresh between with
      ⟨_, _, hAccepted, hDispatched⟩
    rcases hPerishes.after hFresh (between ++ later) with
      ⟨_, _, hAcceptedLater, hDispatchedLater⟩
    rw [hSplit, hDispatched, hDispatchedLater, hAccepted,
      hAcceptedLater]
    exact ⟨hDead.1, rfl, rfl, hDead.2⟩
  fatalLast := by
    intro served envelope hPrefix hFatal
    rcases thrives_or_perishes hFresh acts with
      hThrives | ⟨before, later, last, rfl, hPerishes⟩
    · exact absurd hFatal (hThrives.spared served envelope hPrefix)
    · rcases hPerishes.after hFresh later with
        ⟨_, _, _, hDispatched⟩
      rw [hDispatched, List.prefix_concat_iff] at hPrefix
      rcases hPrefix with hLast | hEarlier
      · rw [hDispatched, hLast]
      · exact
          absurd hFatal
            (hPerishes.thrives.spared served envelope hEarlier)
  stops := by
    rintro before later rfl hFate hTold hChores hSpared
    rcases thrives_or_perishes hFresh (before ++ later) with
      hThrives | ⟨early, late, envelope, hSplit, hPerishes⟩
    · have hEarly :=
        sound_after hFresh.calmed mailbox.sink.isSafe_calmed before
      have hOver :=
        hEarly.ends mailbox.sink.isSafe_calmed hFate hTold
          ((Phase.chores_sublist _).trans hChores)
      rw [← after_append, hThrives.phase, ← isSome_outcome?]
        at hOver
      rcases Option.isSome_iff_exists.mp hOver with
        ⟨outcome, hOutcome⟩
      rw [hOutcome, (hThrives.eq_of_outcome? hFresh hOutcome).1]
    · rw [hSplit] at hSpared
      exact absurd (hPerishes.endsFatally hFresh late) hSpared
  leavesNoneOut := by
    intro hFate hTold
    rcases thrives_or_perishes hFresh acts with
      hThrives | ⟨before, later, envelope, rfl, hPerishes⟩
    · rcases
        (hThrives.sound hFresh).exists_served
          mailbox.sink.isSafe_calmed hFate hTold with
        ⟨more, hMore, hServed⟩
      refine ⟨more, hMore, ?_⟩
      rcases thrives_or_perishes hFresh (acts ++ more) with
        hStill | ⟨early, late, envelope, hSplit, hPerishes⟩
      · left
        have hRun :
            mailbox.calmed.after (acts ++ more) =
              (mailbox.after acts).calmed.follow more := by
          rw [after_append, hThrives.calmed]
        have hSame :=
          congrArg MailboxRun.dispatched hStill.calmed
        rw [hRun, hServed] at hSame
        exact hSame
      · right
        rw [hSplit]
        exact hPerishes.endsFatally hFresh late
    · refine ⟨[], nofun, .inr ?_⟩
      rw [List.append_nil]
      exact hPerishes.endsFatally hFresh later

end Faults

/-
  A mailbox whose handler for pings fails, whose handler for
  pongs panics after a rest, and whose sink panics.
-/
def brittle : Except DuplicateHandler
    (Mailbox (List String) Probe ProbeKind) :=
  let failing := Script.handler ⟨.fail, none, none⟩ .ping
  let panicking :=
    Script.handler ⟨.panicWithText, some 1000, none⟩ .pong
  (((new "brittle" []).register failing).bind
    (register panicking)).map
      (replaceSink (Conduct.dispose .panicWithText))

/- A probe that is sent. -/
def probe
    (kind : ProbeKind)
    (value : Int) : Envelope Probe :=
  .command ⟨Uuid.ofNat 2, ⟨1, 0⟩⟩ ⟨kind, value⟩

/- Faults of both handlers, and then a message for the sink. -/
def brittleActs : List (MailboxAct Nat Probe) :=
  [.send 0 (probe .ping 1), .send 1 (probe .pong 2), .start,
    .work, .work, .work, .send 0 (probe .boom 3), .wake, .work,
    .send 0 (probe .ping 4), .work, .send 1 (probe .ping 5),
    .stop]

/- The faults do no harm, but what no handler is for does. -/
theorem isolatesFaults_brittle :
    ∃ mailbox,
      brittle = .ok mailbox ∧
        mailbox.IsFresh ∧
          mailbox.IsolatesFaults brittleActs ∧
            (mailbox.after brittleActs).accepted.map Prod.snd =
                [probe .ping 1, probe .pong 2, probe .boom 3,
                  probe .ping 4] ∧
              (mailbox.after brittleActs).dispatched =
                  [probe .ping 1, probe .pong 2, probe .boom 3] ∧
                (mailbox.after brittleActs).mailbox.state =
                    ["Ping:1", "Pong:2"] ∧
                  (mailbox.after brittleActs).mailbox.outcome? =
                    some (.error ⟨"brittle"⟩) := by
  refine
    ⟨_, rfl, ⟨rfl, rfl, rfl⟩,
      isolatesFaults ⟨rfl, rfl, rfl⟩ brittleActs, ?_, ?_, ?_, ?_⟩
  · decide +kernel
  · decide +kernel
  · decide +kernel
  · decide +kernel

end Mailbox

end OrderDesk
