import OrderDesk.Proofs.Mailbox.Run

/-
  This file defines mailboxes in guise: the handlers, the
  sink, and the states of a mailbox are replaced by others
  that look different. If every message that is taken leads
  to what it led to before, in another look, then the whole
  run is the same in another look.

  Key definitions include:
    * `Guise`
    * `Mailbox.inGuise`
    * `MailboxRun.inGuise`
    * `MailboxRun.takes?`

  Key theorems include:
    * `Mailbox.take_inGuise`
    * `Mailbox.step?_inGuise`
    * `MailboxRun.act_inGuise`
    * `MailboxRun.keeps_follow`
-/

namespace OrderDesk

variable {ι S T P K : Type}

------------------------------------------------------------
-- Mailboxes In Guise
------------------------------------------------------------

/- The same remainder with another ending. -/
def Remainder.mapEnding
    (endings : Ending → Ending)
    (remainder : Remainder P) : Remainder P :=
  ⟨remainder.effects, endings remainder.ending⟩

/- The same phase, but the handler at work ends in another way. -/
def Phase.mapEnding
    (endings : Ending → Ending) :
    Phase P K → Phase P K
| .resting kind remainder =>
    .resting kind (remainder.mapEnding endings)
| .rested kind remainder =>
    .rested kind (remainder.mapEnding endings)
| phase => phase

/- Messages are accepted no matter how the handler at work ends. -/
theorem Phase.accepts_mapEnding
    (endings : Ending → Ending)
    (phase : Phase P K) :
    (phase.mapEnding endings).accepts = phase.accepts := by
  cases phase <;> rfl

/- The same reaction, with another state and another ending. -/
def Reaction.inGuise
    (endings : Ending → Ending)
    (look : S → T)
    (reaction : Reaction S P) : Reaction T P where
  state := look reaction.state
  effects := reaction.effects
  rest := reaction.rest
  remainder := reaction.remainder.mapEnding endings

/- What a sink does with a message, if it is not the list. -/
def Sink.disposal? :
    Sink P → Envelope P → Option (Disposal P)
| .collect, _ => none
| .custom dispose, envelope => some (dispose envelope)

/-
  Another look of a mailbox: other handlers for states of
  another kind, another sink, and other ways in which
  handlers end.
-/
structure Guise (T P K : Type) where
  registry : Registry T P K
  sink : Sink P
  endings : Ending → Ending

/- A mailbox in a guise, where its states look like others. -/
def Mailbox.inGuise
    (guise : Guise T P K)
    (look : S → T)
    (mailbox : Mailbox S P K) : Mailbox T P K where
  registry := guise.registry
  sink := guise.sink
  unhandled := mailbox.unhandled
  state := look mailbox.state
  queue := mailbox.queue
  phase := mailbox.phase.mapEnding guise.endings
  stopRequested := mailbox.stopRequested

/- A run of a mailbox in a guise. -/
def MailboxRun.inGuise
    (guise : Guise T P K)
    (look : S → T)
    (run : MailboxRun ι S P K) : MailboxRun ι T P K :=
  ⟨run.mailbox.inGuise guise look, run.accepted,
    run.dispatched, run.effects⟩

namespace Mailbox

/-
  A step in a guise is a step of the mailbox, as far as the
  mailbox and the world around it go.
-/
def Step.MatchesInGuise
    (guise : Guise T P K)
    (look : S → T)
    (step : Step S P K)
    (shown : Step T P K) : Prop :=
  shown.mailbox = step.mailbox.inGuise guise look ∧
    shown.effects = step.effects

theorem follow_inGuise
    [Payload P K]
    (guise : Guise T P K)
    (look next : S → T)
    (mailbox : Mailbox S P K)
    (kind : K)
    (reaction : Reaction S P) :
    (mailbox.follow kind reaction).MatchesInGuise guise next
      ((mailbox.inGuise guise look).follow kind
        (reaction.inGuise guise.endings next)) := by
  unfold Step.MatchesInGuise follow Reaction.inGuise
  dsimp only
  by_cases hRest : reaction.rest = 0
  · rw [if_pos hRest, if_pos hRest]
    exact ⟨rfl, rfl⟩
  · rw [if_neg hRest, if_neg hRest]
    exact ⟨rfl, rfl⟩

theorem discard_inGuise
    {guise : Guise T P K}
    {mailbox : Mailbox S P K}
    {envelope : Envelope P}
    (hSink :
      guise.sink.disposal? envelope =
        mailbox.sink.disposal? envelope)
    (look : S → T) :
    (mailbox.discard envelope).MatchesInGuise guise look
      ((mailbox.inGuise guise look).discard envelope) := by
  have hGuise : (mailbox.inGuise guise look).sink = guise.sink := rfl
  unfold Sink.disposal? at hSink
  unfold Step.MatchesInGuise discard
  rw [hGuise]
  cases hShown : guise.sink with
  | collect =>
      cases hOwn : mailbox.sink with
      | collect =>
          unfold inGuise
          rw [hShown]
          exact ⟨rfl, rfl⟩
      | custom dispose =>
          rw [hShown, hOwn] at hSink
          cases hSink
  | custom shown =>
      cases hOwn : mailbox.sink with
      | collect =>
          rw [hShown, hOwn] at hSink
          cases hSink
      | custom dispose =>
          rw [hShown, hOwn] at hSink
          dsimp only
          rw [Option.some.inj hSink]
          unfold inGuise
          rw [hShown]
          cases (dispose envelope).panics <;> exact ⟨rfl, rfl⟩

/-
  A message is taken in the same way, if the same comes of
  it, and if the sinks agree in case nobody handles it.
-/
theorem take_inGuise
    [DecidableEq K]
    [Payload P K]
    {guise : Guise T P K}
    {look next : S → T}
    {mailbox : Mailbox S P K}
    {envelope : Envelope P}
    (hDispatch :
      guise.registry.dispatch (look mailbox.state) envelope =
        (mailbox.registry.dispatch mailbox.state envelope).map
          (Reaction.inGuise guise.endings next))
    (hSink :
      ∀ back,
        mailbox.registry.dispatch mailbox.state envelope =
            .error back →
          look = next ∧
            guise.sink.disposal? back =
              mailbox.sink.disposal? back) :
    (mailbox.take envelope).MatchesInGuise guise next
      ((mailbox.inGuise guise look).take envelope) := by
  have hGuise :
      (mailbox.inGuise guise look).registry.dispatch
          (mailbox.inGuise guise look).state envelope = _ :=
    hDispatch
  unfold take
  rw [hGuise]
  cases hOwn :
      mailbox.registry.dispatch mailbox.state envelope with
  | ok reaction => exact follow_inGuise guise look next mailbox _ _
  | error back =>
      rcases hSink back hOwn with ⟨rfl, hAgree⟩
      exact discard_inGuise hAgree look

theorem next?_inGuise
    (guise : Guise T P K)
    (look : S → T)
    (mailbox : Mailbox S P K) :
    (mailbox.inGuise guise look).next? = mailbox.next? := by
  unfold next? inGuise
  cases mailbox.phase <;> rfl

theorem start_inGuise
    (guise : Guise T P K)
    (look : S → T)
    (mailbox : Mailbox S P K) :
    (mailbox.inGuise guise look).start =
      mailbox.start.inGuise guise look := by
  rcases mailbox with ⟨_, _, _, _, _, phase, _⟩
  cases phase <;> rfl

theorem wake_inGuise
    (guise : Guise T P K)
    (look : S → T)
    (mailbox : Mailbox S P K) :
    (mailbox.inGuise guise look).wake =
      mailbox.wake.inGuise guise look := by
  rcases mailbox with ⟨_, _, _, _, _, phase, _⟩
  cases phase <;> rfl

theorem drop_inGuise
    (guise : Guise T P K)
    (look : S → T)
    (mailbox : Mailbox S P K) :
    (mailbox.inGuise guise look).drop =
      mailbox.drop.inGuise guise look := by
  rcases mailbox with ⟨_, _, _, _, _, phase, _⟩
  cases phase <;> rfl

end Mailbox

------------------------------------------------------------
-- Runs In Guise
------------------------------------------------------------

namespace MailboxRun

/- The message that the worker takes when something happens. -/
def takes?
    (run : MailboxRun ι S P K) :
    MailboxAct ι P → Option (Envelope P)
| .work => run.mailbox.next?
| _ => none

end MailboxRun

section Acts

variable {guise : Guise T P K}
variable {look next : S → T}
variable [DecidableEq K]
variable [Payload P K]

/- A worker that takes no step takes no message. -/
theorem Mailbox.next?_of_step?
    {mailbox : Mailbox S P K}
    (hStep : mailbox.step? = none) :
    mailbox.next? = none := by
  unfold step? at hStep
  unfold next?
  cases hPhase : mailbox.phase with
  | awake =>
      rw [hPhase] at hStep
      cases hStop : mailbox.stopRequested with
      | true => rfl
      | false =>
          cases hQueue : mailbox.queue with
          | nil => rfl
          | cons envelope queue =>
              simp [hStop, hQueue] at hStep
  | _ => rfl

/-
  The worker takes the same step in a guise, if it takes the
  next message in the same way.
-/
theorem Mailbox.step?_inGuise
    {mailbox : Mailbox S P K}
    (hIdle : mailbox.next? = none → look = next)
    (hTake :
      ∀ envelope,
        mailbox.next? = some envelope →
          ({ mailbox with queue := mailbox.queue.tail }.take
              envelope).MatchesInGuise guise next
            (({ mailbox with queue := mailbox.queue.tail }.inGuise
              guise look).take envelope)) :
    (mailbox.step? = none ∧
        (mailbox.inGuise guise look).step? = none) ∨
      ∃ step shown,
        mailbox.step? = some step ∧
          (mailbox.inGuise guise look).step? = some shown ∧
            step.MatchesInGuise guise next shown := by
  cases hPhase : mailbox.phase with
  | awake =>
      cases hStop : mailbox.stopRequested with
      | true =>
          cases hIdle (by simp [next?, hPhase, hStop])
          right
          simp [step?, hPhase, hStop, inGuise, halt,
            Step.MatchesInGuise, Phase.mapEnding]
      | false =>
          cases hQueue : mailbox.queue with
          | nil =>
              left
              simp [step?, hPhase, hStop, inGuise, hQueue,
                Phase.mapEnding]
          | cons envelope queue =>
              right
              have hShown :
                  (mailbox.inGuise guise look).phase = .awake := by
                unfold inGuise
                rw [hPhase]
                rfl
              have hMatch :=
                hTake envelope (by simp [next?, hPhase, hStop, hQueue])
              rw [hQueue, List.tail_cons] at hMatch
              exact
                ⟨_, _, step?_of_awake hPhase hStop hQueue,
                  step?_of_awake hShown hStop hQueue, hMatch⟩
  | _ =>
      cases hIdle (by simp [next?, hPhase])
      simp [step?, inGuise, commence, complete, hPhase,
        Step.MatchesInGuise, Phase.mapEnding, Remainder.mapEnding]

/-
  The same comes of everything that happens in a guise, if
  the worker takes messages in the same way.
-/
theorem MailboxRun.act_inGuise
    {run : MailboxRun ι S P K}
    {act : MailboxAct ι P}
    (hIdle : run.takes? act = none → look = next)
    (hTake :
      ∀ envelope,
        run.takes? act = some envelope →
          ({ run.mailbox with
                queue := run.mailbox.queue.tail }.take
              envelope).MatchesInGuise guise next
            (({ run.mailbox with
                queue := run.mailbox.queue.tail }.inGuise
              guise look).take envelope)) :
    (run.inGuise guise look).act act =
      (run.act act).inGuise guise next := by
  cases act with
  | work =>
      have hNext := run.mailbox.next?_inGuise guise look
      unfold MailboxRun.act inGuise
      rcases Mailbox.step?_inGuise hIdle hTake with
        ⟨hStep, hShown⟩ | ⟨step, shown, hStep, hShown, hMatch⟩
      · rw [hStep, hShown, hIdle (Mailbox.next?_of_step? hStep)]
      · rw [hStep, hShown]
        dsimp only
        rw [hNext, hMatch.1, hMatch.2]
  | send sender envelope =>
      cases hIdle rfl
      have hSame :
          (run.mailbox.inGuise guise look).phase.accepts =
            run.mailbox.phase.accepts :=
        run.mailbox.phase.accepts_mapEnding guise.endings
      unfold MailboxRun.act inGuise Mailbox.send?
      dsimp only
      rw [hSame]
      cases run.mailbox.phase.accepts <;> rfl
  | start =>
      cases hIdle rfl
      unfold MailboxRun.act inGuise
      rw [Mailbox.start_inGuise]
  | wake =>
      cases hIdle rfl
      unfold MailboxRun.act inGuise
      rw [Mailbox.wake_inGuise]
  | stop =>
      cases hIdle rfl
      rfl
  | drop =>
      cases hIdle rfl
      unfold MailboxRun.act inGuise
      rw [Mailbox.drop_inGuise]

/- What the worker takes is recorded. -/
theorem MailboxRun.dispatched_act_eq
    (run : MailboxRun ι S P K)
    (act : MailboxAct ι P) :
    (run.act act).dispatched =
      run.dispatched ++ (run.takes? act).toList := by
  cases act with
  | work =>
      unfold MailboxRun.act takes?
      dsimp only
      cases hStep : run.mailbox.step? with
      | none =>
          rw [Mailbox.next?_of_step? hStep, Option.toList_none,
            List.append_nil]
      | some step => rfl
  | send sender envelope =>
      unfold MailboxRun.act takes?
      rw [Option.toList_none, List.append_nil]
      dsimp only
      split <;> rfl
  | _ => exact (List.append_nil _).symm

theorem Mailbox.keeps_take
    (mailbox : Mailbox S P K)
    (envelope : Envelope P) :
    (mailbox.take envelope).mailbox.registry = mailbox.registry ∧
      (mailbox.take envelope).mailbox.sink = mailbox.sink := by
  unfold take
  split
  · unfold follow
    dsimp only
    split <;> exact ⟨rfl, rfl⟩
  · unfold discard
    split
    · exact ⟨rfl, rfl⟩
    · dsimp only
      split <;> exact ⟨rfl, rfl⟩

theorem Mailbox.keeps_step?
    {mailbox : Mailbox S P K}
    {step : Step S P K}
    (hStep : mailbox.step? = some step) :
    step.mailbox.registry = mailbox.registry ∧
      step.mailbox.sink = mailbox.sink := by
  unfold step? at hStep
  cases hPhase : mailbox.phase with
  | awake =>
      rw [hPhase] at hStep
      dsimp only at hStep
      split at hStep
      · cases hStep
        exact ⟨rfl, rfl⟩
      · split at hStep
        · cases hStep
        · cases hStep
          exact keeps_take _ _
  | starting =>
      rw [hPhase] at hStep
      cases hStep
      exact ⟨rfl, rfl⟩
  | rested kind remainder =>
      rw [hPhase] at hStep
      cases hStep
      exact ⟨rfl, rfl⟩
  | _ =>
      rw [hPhase] at hStep
      cases hStep

namespace MailboxRun

theorem keeps_act
    (run : MailboxRun ι S P K)
    (act : MailboxAct ι P) :
    (run.act act).mailbox.registry = run.mailbox.registry ∧
      (run.act act).mailbox.sink = run.mailbox.sink := by
  cases act with
  | send sender envelope =>
      unfold MailboxRun.act Mailbox.send?
      cases run.mailbox.phase.accepts <;> exact ⟨rfl, rfl⟩
  | work =>
      unfold MailboxRun.act
      cases hStep : run.mailbox.step? with
      | none => exact ⟨rfl, rfl⟩
      | some step => exact Mailbox.keeps_step? hStep
  | start =>
      unfold MailboxRun.act Mailbox.start
      cases run.mailbox.phase <;> exact ⟨rfl, rfl⟩
  | wake =>
      unfold MailboxRun.act Mailbox.wake
      cases run.mailbox.phase <;> exact ⟨rfl, rfl⟩
  | stop => exact ⟨rfl, rfl⟩
  | drop =>
      unfold MailboxRun.act Mailbox.drop
      cases run.mailbox.phase <;> exact ⟨rfl, rfl⟩

/- Whatever happens in the end, they are kept. -/
theorem keeps_follow
    (run : MailboxRun ι S P K)
    (acts : List (MailboxAct ι P)) :
    (run.follow acts).mailbox.registry = run.mailbox.registry ∧
      (run.follow acts).mailbox.sink = run.mailbox.sink := by
  induction acts generalizing run with
  | nil => exact ⟨rfl, rfl⟩
  | cons act acts ih =>
      have hAct := run.keeps_act act
      have hRest := ih (run.act act)
      exact ⟨hRest.1.trans hAct.1, hRest.2.trans hAct.2⟩

end MailboxRun

end Acts

end OrderDesk
