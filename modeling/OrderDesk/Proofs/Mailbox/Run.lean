import OrderDesk.Mailbox.Basic

/-
  This file defines runs of a mailbox: whatever is sent to
  it by whom, whenever its worker is started, goes on, wakes
  up, or is told to stop. It says once what each thing that
  happens can change.

  Key definitions include:
    * `MailboxAct`
    * `MailboxRun`
    * `MailboxRun.act`
    * `MailboxRun.follow`
    * `Upshot`
    * `Mailbox.upshot`
    * `MailboxRun.Turn`

  Key theorems include:
    * `Mailbox.taken_take`
    * `MailboxRun.turn_act`
    * `MailboxRun.follow_induction`
-/

namespace OrderDesk

variable {ι S P K : Type}

------------------------------------------------------------
-- What Comes Of Messages
------------------------------------------------------------

/-
  What there is after messages were handled: the state of
  the component, the messages that nobody handled, and what
  happened around it, oldest first.
-/
structure Upshot (S P : Type) where
  state : S
  unhandled : List (Envelope P)
  effects : List (Effect P)

namespace Sink

/- A sink that does not panic, whatever it is given. -/
def IsSafe :
    Sink P → Prop
| .collect => True
| .custom dispose =>
    ∀ envelope, (dispose envelope).panics = false

end Sink

namespace Phase

/- What the handler at work is still to do. -/
def pendingEffects :
    Phase P K → List (Effect P)
| .resting _ remainder => remainder.effects
| .rested _ remainder => remainder.effects
| _ => []

end Phase

namespace Mailbox

section Upshot

variable [DecidableEq K]
variable [Payload P K]

/- One more message is handled. -/
def absorb
    (mailbox : Mailbox S P K)
    (upshot : Upshot S P)
    (envelope : Envelope P) : Upshot S P :=
  match mailbox.registry.dispatch upshot.state envelope with
  | .ok reaction =>
      { upshot with
        state := reaction.state
        effects :=
          upshot.effects ++
            (reaction.effects ++ reaction.remainder.effects) }
  | .error envelope =>
      match mailbox.sink with
      | .collect =>
          { upshot with
            unhandled := upshot.unhandled ++ [envelope] }
      | .custom dispose =>
          { upshot with
            effects :=
              upshot.effects ++ (dispose envelope).effects }

/-
  What comes of messages if they are handled one after the
  other, each to its end.
-/
def upshot
    (mailbox : Mailbox S P K)
    (envelopes : List (Envelope P)) : Upshot S P :=
  envelopes.foldl mailbox.absorb
    ⟨mailbox.state, mailbox.unhandled, []⟩

theorem upshot_concat
    (mailbox : Mailbox S P K)
    (envelopes : List (Envelope P))
    (envelope : Envelope P) :
    mailbox.upshot (envelopes ++ [envelope]) =
      mailbox.absorb (mailbox.upshot envelopes) envelope :=
  List.foldl_append

/- What comes of a message depends on the handlers and the sink. -/
theorem absorb_congr
    {mailbox other : Mailbox S P K}
    (hRegistry : mailbox.registry = other.registry)
    (hSink : mailbox.sink = other.sink) :
    mailbox.absorb = other.absorb := by
  funext upshot envelope
  unfold absorb
  rw [hRegistry, hSink]

/-
  What a worker does when it takes a message: it is at work
  or rests in the handler afterwards, and with what the
  handler is still to do the message is handled.
-/
structure Taken
    (mailbox : Mailbox S P K)
    (envelope : Envelope P)
    (step : Step S P K) : Prop where
  registry : step.mailbox.registry = mailbox.registry
  sink : step.mailbox.sink = mailbox.sink
  queue : step.mailbox.queue = mailbox.queue
  stopRequested :
    step.mailbox.stopRequested = mailbox.stopRequested
  phase :
    step.mailbox.phase = .awake ∨
      ∃ kind remainder,
        step.mailbox.phase = .resting kind remainder
  absorbed :
    ∀ effects,
      (⟨step.mailbox.state, step.mailbox.unhandled,
        effects ++ (step.effects ++
          step.mailbox.phase.pendingEffects)⟩ : Upshot S P) =
        mailbox.absorb
          ⟨mailbox.state, mailbox.unhandled, effects⟩ envelope

/- A worker with a safe sink takes a message in this way. -/
theorem taken_take
    {mailbox : Mailbox S P K}
    (hSink : mailbox.sink.IsSafe)
    (hPhase : mailbox.phase = .awake)
    (envelope : Envelope P) :
    mailbox.Taken envelope (mailbox.take envelope) := by
  unfold take
  cases hDispatch :
      mailbox.registry.dispatch mailbox.state envelope with
  | ok reaction =>
      by_cases hRest : reaction.rest = 0
      · simp only [follow, if_pos hRest, complete]
        exact
          { registry := rfl
            sink := rfl
            queue := rfl
            stopRequested := rfl
            phase := .inl rfl
            absorbed := fun effects => by
              simp [absorb, hDispatch, Phase.pendingEffects] }
      · simp only [follow, if_neg hRest]
        exact
          { registry := rfl
            sink := rfl
            queue := rfl
            stopRequested := rfl
            phase := .inr ⟨_, _, rfl⟩
            absorbed := fun effects => by
              simp [absorb, hDispatch, Phase.pendingEffects] }
  | error back =>
      cases hKind : mailbox.sink with
      | collect =>
          simp only [discard, hKind]
          exact
            { registry := rfl
              sink := hKind.symm
              queue := rfl
              stopRequested := rfl
              phase := .inl hPhase
              absorbed := fun effects => by
                simp [absorb, hDispatch, hKind, hPhase,
                  Phase.pendingEffects] }
      | custom dispose =>
          rw [hKind] at hSink
          have hSafe : (dispose back).panics = false := hSink back
          simp only [discard, hKind, hSafe, Bool.false_eq_true,
            if_false]
          exact
            { registry := rfl
              sink := rfl
              queue := rfl
              stopRequested := rfl
              phase := .inl hPhase
              absorbed := fun effects => by
                simp [absorb, hDispatch, hKind, hPhase,
                  Phase.pendingEffects] }

/- A worker that goes on takes the first message that waits. -/
theorem step?_of_awake
    {mailbox : Mailbox S P K}
    {envelope : Envelope P}
    {queue : List (Envelope P)}
    (hPhase : mailbox.phase = .awake)
    (hGoesOn : mailbox.stopRequested = false)
    (hQueue : mailbox.queue = envelope :: queue) :
    mailbox.step? =
      some ({ mailbox with queue := queue }.take envelope) := by
  simp [step?, hPhase, hGoesOn, hQueue]

/- What it takes is handled. -/
theorem exists_taken
    {mailbox : Mailbox S P K}
    {envelope : Envelope P}
    {queue : List (Envelope P)}
    (hSink : mailbox.sink.IsSafe)
    (hPhase : mailbox.phase = .awake)
    (hGoesOn : mailbox.stopRequested = false)
    (hQueue : mailbox.queue = envelope :: queue) :
    ∃ step,
      mailbox.step? = some step ∧
        Taken { mailbox with queue := queue } envelope step := by
  refine ⟨_, step?_of_awake hPhase hGoesOn hQueue, ?_⟩
  apply taken_take
  · exact hSink
  · exact hPhase

end Upshot

theorem start_of_ne
    {mailbox : Mailbox S P K}
    (hPhase : mailbox.phase ≠ .created) :
    mailbox.start = mailbox := by
  unfold start
  split
  · contradiction
  · rfl

/- To give up a mailbox with a worker is to stop the worker. -/
theorem drop_of_ne
    {mailbox : Mailbox S P K}
    (hPhase : mailbox.phase ≠ .created) :
    mailbox.drop = mailbox.requestStop := by
  unfold drop
  split
  · contradiction
  · rfl

/- The message that the worker takes with its next step. -/
def next?
    (mailbox : Mailbox S P K) : Option (Envelope P) :=
  match mailbox.phase with
  | .awake =>
      if mailbox.stopRequested then
        none
      else
        mailbox.queue.head?
  | _ => none

end Mailbox

------------------------------------------------------------
-- Runs
------------------------------------------------------------

/-
  What can happen to a mailbox: somebody sends a message, it
  is started, its worker takes a step if it can, the rest of
  the handler at work is over, the worker is told to stop,
  or the mailbox is given up.
-/
inductive MailboxAct (ι P : Type) where
  | send (sender : ι) (envelope : Envelope P)
  | start
  | work
  | wake
  | stop
  | drop

/- The message that is sent, and by whom. -/
def MailboxAct.sent? :
    MailboxAct ι P → Option (ι × Envelope P)
| .send sender envelope => some (sender, envelope)
| _ => none

/-
  A mailbox, the messages that it accepted and from whom,
  the ones that its worker took, and what happened around
  it, all oldest first.
-/
structure MailboxRun (ι S P K : Type) where
  mailbox : Mailbox S P K
  accepted : List (ι × Envelope P)
  dispatched : List (Envelope P)
  effects : List (Effect P)

namespace MailboxRun

/- A mailbox to which nothing has happened. -/
def begin
    (mailbox : Mailbox S P K) : MailboxRun ι S P K :=
  ⟨mailbox, [], [], []⟩

section Acts

variable [DecidableEq K]
variable [Payload P K]

/- Let something happen. -/
def act
    (run : MailboxRun ι S P K) :
    MailboxAct ι P → MailboxRun ι S P K
| .send sender envelope =>
    match run.mailbox.send? envelope with
    | some mailbox =>
        { run with
          mailbox := mailbox
          accepted := run.accepted ++ [(sender, envelope)] }
    | none => run
| .start => { run with mailbox := run.mailbox.start }
| .work =>
    match run.mailbox.step? with
    | some step =>
        { run with
          mailbox := step.mailbox
          dispatched :=
            run.dispatched ++ run.mailbox.next?.toList
          effects := run.effects ++ step.effects }
    | none => run
| .wake => { run with mailbox := run.mailbox.wake }
| .stop => { run with mailbox := run.mailbox.requestStop }
| .drop => { run with mailbox := run.mailbox.drop }

/- Let one thing happen after the other. -/
def follow
    (run : MailboxRun ι S P K)
    (acts : List (MailboxAct ι P)) : MailboxRun ι S P K :=
  acts.foldl act run

theorem accepted_act
    (run : MailboxRun ι S P K)
    (act : MailboxAct ι P) :
    run.accepted <+: (run.act act).accepted := by
  cases act with
  | send sender envelope =>
      unfold MailboxRun.act
      dsimp only
      split
      · exact List.prefix_append _ _
      · exact List.prefix_rfl
  | work =>
      unfold MailboxRun.act
      dsimp only
      split <;> exact List.prefix_rfl
  | start => exact List.prefix_rfl
  | wake => exact List.prefix_rfl
  | stop => exact List.prefix_rfl
  | drop => exact List.prefix_rfl

theorem accepted_follow
    (run : MailboxRun ι S P K)
    (acts : List (MailboxAct ι P)) :
    run.accepted <+: (run.follow acts).accepted := by
  induction acts generalizing run with
  | nil => exact List.prefix_rfl
  | cons act acts ih =>
      exact (run.accepted_act act).trans (ih (run.act act))

theorem follow_append
    (run : MailboxRun ι S P K)
    (first second : List (MailboxAct ι P)) :
    run.follow (first ++ second) =
      (run.follow first).follow second :=
  List.foldl_append

/-
  What everything that happens preserves holds in the end.
  The property may speak of what happened so far.
-/
theorem follow_induction
    (P' : List (MailboxAct ι P) → MailboxRun ι S P K → Prop)
    (hAct :
      ∀ seen run act, P' seen run →
        P' (seen ++ [act]) (run.act act))
    {run : MailboxRun ι S P K}
    {seen : List (MailboxAct ι P)}
    (hStart : P' seen run)
    (acts : List (MailboxAct ι P)) :
    P' (seen ++ acts) (run.follow acts) := by
  induction acts generalizing seen run with
  | nil =>
      rw [List.append_nil]
      exact hStart
  | cons act acts ih =>
      have hNext := ih (hAct seen run act hStart)
      rw [List.append_assoc] at hNext
      exact hNext

end Acts

------------------------------------------------------------
-- Turns
------------------------------------------------------------

section Turns

variable [DecidableEq K]
variable [Payload P K]

/-
  What can come of each thing that happens. The worker takes
  the first message that waits, and only if it is at work
  and not told to stop.
-/
inductive Turn
    (run : MailboxRun ι S P K) :
    MailboxAct ι P → MailboxRun ι S P K → Prop where
  | accepted
      (sender : ι)
      (envelope : Envelope P)
      (hAccepts : run.mailbox.phase.accepts = true) :
      Turn run (.send sender envelope)
        { run with
          mailbox :=
            { run.mailbox with
              queue := run.mailbox.queue ++ [envelope] }
          accepted := run.accepted ++ [(sender, envelope)] }
  | refused
      (sender : ι)
      (envelope : Envelope P)
      (hRefuses : run.mailbox.phase.accepts = false) :
      Turn run (.send sender envelope) run
  | started
      (hPhase : run.mailbox.phase = .created) :
      Turn run .start
        { run with
          mailbox := { run.mailbox with phase := .starting } }
  | underway
      (hPhase : run.mailbox.phase ≠ .created) :
      Turn run .start run
  | commenced
      (hPhase : run.mailbox.phase = .starting) :
      Turn run .work
        { run with
          mailbox := { run.mailbox with phase := .awake } }
  | took
      (envelope : Envelope P)
      (queue : List (Envelope P))
      (step : Mailbox.Step S P K)
      (hPhase : run.mailbox.phase = .awake)
      (hGoesOn : run.mailbox.stopRequested = false)
      (hQueue : run.mailbox.queue = envelope :: queue)
      (hTaken :
        Mailbox.Taken { run.mailbox with queue := queue } envelope
          step) :
      Turn run .work
        { run with
          mailbox := step.mailbox
          dispatched := run.dispatched ++ [envelope]
          effects := run.effects ++ step.effects }
  | completed
      (kind : K)
      (remainder : Remainder P)
      (hPhase : run.mailbox.phase = .rested kind remainder) :
      Turn run .work
        { run with
          mailbox := { run.mailbox with phase := .awake }
          effects := run.effects ++ remainder.effects }
  | halted
      (hPhase : run.mailbox.phase = .awake)
      (hStop : run.mailbox.stopRequested = true) :
      Turn run .work
        { run with
          mailbox :=
            { run.mailbox with queue := [], phase := .stopped } }
  | waited
      (hWaits : run.mailbox.step? = none) :
      Turn run .work run
  | woke
      (kind : K)
      (remainder : Remainder P)
      (hPhase : run.mailbox.phase = .resting kind remainder) :
      Turn run .wake
        { run with
          mailbox :=
            { run.mailbox with phase := .rested kind remainder } }
  | unmoved
      (hPhase :
        ∀ kind remainder,
          run.mailbox.phase ≠ .resting kind remainder) :
      Turn run .wake run
  | told :
      Turn run .stop
        { run with
          mailbox := { run.mailbox with stopRequested := true } }
  | givenUp
      (hPhase : run.mailbox.phase = .created) :
      Turn run .drop
        { run with
          mailbox :=
            { run.mailbox with queue := [], phase := .dropped } }
  | released
      (hPhase : run.mailbox.phase ≠ .created) :
      Turn run .drop
        { run with
          mailbox := { run.mailbox with stopRequested := true } }

/- What comes of a step of the worker is one of the turns. -/
theorem turn_work
    {run : MailboxRun ι S P K}
    (hSink : run.mailbox.sink.IsSafe) :
    Turn run .work (run.act .work) := by
  cases hStep : run.mailbox.step? with
  | none =>
      simp only [act, hStep]
      exact .waited hStep
  | some step =>
      simp only [act, hStep]
      cases hPhase : run.mailbox.phase with
      | starting =>
          simp only [Mailbox.step?, hPhase, Option.some.injEq]
            at hStep
          rw [← hStep]
          simpa [Mailbox.next?, hPhase, Mailbox.commence]
            using Turn.commenced hPhase
      | rested kind remainder =>
          simp only [Mailbox.step?, hPhase, Option.some.injEq]
            at hStep
          rw [← hStep]
          simpa [Mailbox.next?, hPhase, Mailbox.complete]
            using Turn.completed kind remainder hPhase
      | awake =>
          cases hStop : run.mailbox.stopRequested with
          | true =>
              simp only [Mailbox.step?, hPhase, hStop, if_true,
                Option.some.injEq] at hStep
              rw [← hStep]
              simpa [Mailbox.next?, hPhase, hStop, Mailbox.halt]
                using Turn.halted hPhase hStop
          | false =>
              cases hQueue : run.mailbox.queue with
              | nil =>
                  simp [Mailbox.step?, hPhase, hStop, hQueue]
                    at hStep
              | cons envelope queue =>
                  rcases
                    Mailbox.exists_taken hSink hPhase hStop
                      hQueue with
                    ⟨taken, hTake, hTaken⟩
                  cases hTake.symm.trans hStep
                  simpa [Mailbox.next?, hPhase, hStop, hQueue]
                    using
                      Turn.took envelope queue step hPhase hStop
                        hQueue hTaken
      | created => simp [Mailbox.step?, hPhase] at hStep
      | resting kind remainder =>
          simp [Mailbox.step?, hPhase] at hStep
      | stopped => simp [Mailbox.step?, hPhase] at hStep
      | died => simp [Mailbox.step?, hPhase] at hStep
      | dropped => simp [Mailbox.step?, hPhase] at hStep

/- Whatever happens is one of the turns. -/
theorem turn_act
    {run : MailboxRun ι S P K}
    (hSink : run.mailbox.sink.IsSafe)
    (act : MailboxAct ι P) :
    Turn run act (run.act act) := by
  cases act with
  | send sender envelope =>
      cases hAccepts : run.mailbox.phase.accepts with
      | true =>
          simpa [MailboxRun.act, Mailbox.send?, hAccepts]
            using Turn.accepted sender envelope hAccepts
      | false =>
          simpa [MailboxRun.act, Mailbox.send?, hAccepts]
            using Turn.refused sender envelope hAccepts
  | start =>
      by_cases hPhase : run.mailbox.phase = .created
      · simpa [MailboxRun.act, Mailbox.start, hPhase]
          using Turn.started hPhase
      · rw [MailboxRun.act, Mailbox.start_of_ne hPhase]
        exact .underway hPhase
  | work => exact turn_work hSink
  | wake =>
      simp only [MailboxRun.act, Mailbox.wake]
      split
      · rename_i kind remainder hPhase
        exact .woke kind remainder hPhase
      · rename_i hPhase
        exact .unmoved hPhase
  | stop => exact .told
  | drop =>
      by_cases hPhase : run.mailbox.phase = .created
      · simpa [MailboxRun.act, Mailbox.drop, hPhase]
          using Turn.givenUp hPhase
      · rw [MailboxRun.act, Mailbox.drop_of_ne hPhase]
        exact .released hPhase

end Turns

end MailboxRun

end OrderDesk
