import OrderDesk.Proofs.Mailbox.Run

/-
  This file proves what holds of a mailbox after all that
  happened to it. It was started or given up, and told to
  stop or not; it has accepted what was sent until it ended;
  and it accounts for every message that it accepted.

  Key definitions include:
    * `sendsOf`
    * `fateOf?`
    * `isTold`
    * `MailboxRun.Stands`
    * `MailboxRun.Admits`
    * `MailboxRun.Accounts`
    * `MailboxRun.Sound`

  Key theorems include:
    * `MailboxRun.Stands.turn`
    * `MailboxRun.Admits.turn`
    * `MailboxRun.Accounts.turn`
    * `MailboxRun.Sound.dispatched_follow`
-/

namespace OrderDesk

variable {ι S P K : Type}

------------------------------------------------------------
-- What Happened So Far
------------------------------------------------------------

/- The messages that are sent, and by whom. -/
def sendsOf
    (acts : List (MailboxAct ι P)) : List (ι × Envelope P) :=
  acts.filterMap MailboxAct.sent?

/- A new mailbox is started, or it is given up. -/
inductive Fate where
  | started
  | givenUp
deriving DecidableEq

/- What becomes of a mailbox if it is new. -/
def MailboxAct.fate? :
    MailboxAct ι P → Option Fate
| .start => some .started
| .drop => some .givenUp
| _ => none

/- What becomes of a new mailbox: whatever happens first. -/
def fateOf?
    (acts : List (MailboxAct ι P)) : Option Fate :=
  acts.findSome? MailboxAct.fate?

/- What becomes of a mailbox, as it can be seen from its phase. -/
def Phase.fate? :
    Phase P K → Option Fate
| .created => none
| .dropped => some .givenUp
| _ => some .started

/- Tells the worker to stop, if there is one. -/
def MailboxAct.isSignal :
    MailboxAct ι P → Bool
| .stop => true
| .drop => true
| _ => false

/- The worker was told to stop. -/
def isTold
    (acts : List (MailboxAct ι P)) : Bool :=
  acts.any MailboxAct.isSignal

/- Whatever is sent is sent after all the rest. -/
theorem sendsOf_concat
    (acts : List (MailboxAct ι P))
    (act : MailboxAct ι P) :
    sendsOf (acts ++ [act]) = sendsOf acts ++ act.sent?.toList := by
  unfold sendsOf
  rw [List.filterMap_append]
  cases hSent : act.sent? <;> simp [hSent]

theorem fateOf?_concat
    (acts : List (MailboxAct ι P))
    (act : MailboxAct ι P) :
    fateOf? (acts ++ [act]) = (fateOf? acts).or act.fate? := by
  cases act <;> simp [fateOf?, MailboxAct.fate?]

theorem fateOf?_concat_of_started
    {acts : List (MailboxAct ι P)}
    (hFate : fateOf? acts = some .started)
    (act : MailboxAct ι P) :
    fateOf? (acts ++ [act]) = some .started := by
  rw [fateOf?_concat, hFate]
  rfl

theorem isTold_append
    (acts more : List (MailboxAct ι P)) :
    isTold (acts ++ more) = (isTold acts || isTold more) :=
  List.any_append

/- Messages are accepted until the worker ends, if there is one. -/
theorem Phase.accepts_eq_true_iff
    (phase : Phase P K) :
    phase.accepts = true ↔
      phase.isOver = false ∧ phase.fate? ≠ some .givenUp := by
  cases phase <;>
    simp [Phase.accepts, Phase.isOver, Phase.fate?]

theorem Mailbox.Taken.goesOn
    [DecidableEq K]
    [Payload P K]
    {mailbox : Mailbox S P K}
    {envelope : Envelope P}
    {step : Mailbox.Step S P K}
    (hTaken : mailbox.Taken envelope step) :
    step.mailbox.phase.isOver = false ∧
      step.mailbox.phase.fate? = some .started := by
  rcases hTaken.phase with hAwake | ⟨_, _, hResting⟩
  · rw [hAwake]
    exact ⟨rfl, rfl⟩
  · rw [hResting]
    exact ⟨rfl, rfl⟩

namespace MailboxRun

variable {run next : MailboxRun ι S P K}
variable {acts : List (MailboxAct ι P)}
variable {act : MailboxAct ι P}

------------------------------------------------------------
-- Where A Mailbox Stands
------------------------------------------------------------

/-
  A mailbox is where it ought to be after what happened to
  it: started or given up, and told to stop or not.
-/
structure Stands
    (acts : List (MailboxAct ι P))
    (run : MailboxRun ι S P K) : Prop where
  fate : run.mailbox.phase.fate? = fateOf? acts
  told :
    isTold acts = true ↔
      run.mailbox.stopRequested = true ∨
        run.mailbox.phase.fate? = some .givenUp

/-
  Nothing about that changes unless a mailbox is started,
  stopped or given up.
-/
theorem Stands.goOn
    (hStands : Stands acts run)
    (hFate : (fateOf? acts).or act.fate? = fateOf? acts)
    (hSignal : act.isSignal = false)
    (hPhase :
      next.mailbox.phase.fate? = run.mailbox.phase.fate?)
    (hStop :
      next.mailbox.stopRequested = run.mailbox.stopRequested) :
    Stands (acts ++ [act]) next where
  fate := by
    rw [fateOf?_concat, hFate, hPhase, hStands.fate]
  told := by
    rw [isTold_append, hPhase, hStop, ← hStands.told]
    simp [isTold, hSignal]

/- What became of a mailbox is never undone. -/
theorem Stands.fate_or
    (hStands : Stands acts run)
    (hPhase : run.mailbox.phase ≠ .created)
    (act : MailboxAct ι P) :
    (fateOf? acts).or act.fate? = fateOf? acts := by
  rw [← hStands.fate]
  cases hKind : run.mailbox.phase <;> simp [Phase.fate?]
  contradiction

theorem isTold_concat_signal
    (acts : List (MailboxAct ι P))
    (hSignal : act.isSignal = true) :
    isTold (acts ++ [act]) = true := by
  rw [isTold_append]
  simp [isTold, hSignal]

section Turns

variable [DecidableEq K]
variable [Payload P K]

/- A mailbox is where it ought to be after every turn. -/
theorem Stands.turn
    (hTurn : Turn run act next)
    (hStands : Stands acts run) :
    Stands (acts ++ [act]) next := by
  have hFate := hStands.fate
  have hTold := hStands.told
  cases hTurn with
  | accepted sender envelope hAccepts =>
      exact hStands.goOn Option.or_none rfl rfl rfl
  | refused sender envelope hRefuses =>
      exact hStands.goOn Option.or_none rfl rfl rfl
  | started hPhase =>
      rw [hPhase] at hFate hTold
      exact
        { fate := by
            rw [fateOf?_concat, ← hFate]
            rfl
          told := by
            rw [isTold_append]
            simpa [isTold, MailboxAct.isSignal, Phase.fate?]
              using hTold }
  | underway hPhase =>
      exact
        hStands.goOn (hStands.fate_or hPhase .start) rfl rfl rfl
  | commenced hPhase =>
      exact
        hStands.goOn Option.or_none rfl (by rw [hPhase]; rfl) rfl
  | took envelope queue step hPhase hGoesOn hQueue hTaken =>
      have hSame :
          step.mailbox.phase.fate? =
            run.mailbox.phase.fate? := by
        rw [hTaken.goesOn.2, hPhase]
        rfl
      exact
        hStands.goOn Option.or_none rfl hSame hTaken.stopRequested
  | completed kind remainder hPhase =>
      exact
        hStands.goOn Option.or_none rfl (by rw [hPhase]; rfl) rfl
  | halted hPhase hStop =>
      exact
        hStands.goOn Option.or_none rfl (by rw [hPhase]; rfl) rfl
  | waited hWaits =>
      exact hStands.goOn Option.or_none rfl rfl rfl
  | woke kind remainder hPhase =>
      exact
        hStands.goOn Option.or_none rfl (by rw [hPhase]; rfl) rfl
  | unmoved hPhase =>
      exact hStands.goOn Option.or_none rfl rfl rfl
  | told =>
      exact
        { fate := by
            rw [fateOf?_concat, ← hFate]
            exact Option.or_none.symm
          told :=
            iff_of_true (isTold_concat_signal acts rfl) (.inl rfl) }
  | givenUp hPhase =>
      rw [hPhase] at hFate
      exact
        { fate := by
            rw [fateOf?_concat, ← hFate]
            rfl
          told :=
            iff_of_true (isTold_concat_signal acts rfl) (.inr rfl) }
  | released hPhase =>
      exact
        { fate := by
            rw [fateOf?_concat, hStands.fate_or hPhase .drop,
              ← hFate]
          told :=
            iff_of_true (isTold_concat_signal acts rfl) (.inl rfl) }

end Turns

------------------------------------------------------------
-- What A Mailbox Has Accepted
------------------------------------------------------------

/-
  A mailbox has accepted the first messages that were sent,
  and all of them as long as it accepts messages.
-/
structure Admits
    (acts : List (MailboxAct ι P))
    (run : MailboxRun ι S P K) : Prop where
  first : run.accepted <+: sendsOf acts
  all :
    run.mailbox.phase.accepts = true →
      run.accepted = sendsOf acts

/- Nothing about that changes if nothing is sent. -/
theorem Admits.goOn
    (hAdmits : Admits acts run)
    (hSent : act.sent? = none)
    (hAccepted : next.accepted = run.accepted)
    (hAccepts :
      next.mailbox.phase.accepts = true →
        run.mailbox.phase.accepts = true) :
    Admits (acts ++ [act]) next where
  first := by
    rw [sendsOf_concat, hSent, hAccepted]
    simpa using hAdmits.first
  all := by
    intro hNext
    rw [sendsOf_concat, hSent, hAccepted]
    simpa using hAdmits.all (hAccepts hNext)

section Turns

variable [DecidableEq K]
variable [Payload P K]

/- A mailbox accepts what is sent, until it accepts nothing. -/
theorem Admits.turn
    (hTurn : Turn run act next)
    (hAdmits : Admits acts run) :
    Admits (acts ++ [act]) next := by
  cases hTurn with
  | accepted sender envelope hAccepts =>
      have hSends :
          sendsOf (acts ++ [.send sender envelope]) =
            run.accepted ++ [(sender, envelope)] := by
        rw [sendsOf_concat, hAdmits.all hAccepts]
        rfl
      exact
        { first := ⟨[], (List.append_nil _).trans hSends.symm⟩
          all := fun _ => hSends.symm }
  | refused sender envelope hRefuses =>
      exact
        { first := by
            rw [sendsOf_concat]
            exact hAdmits.first.trans (List.prefix_append _ _)
          all := fun hAccepts => by
            rw [hRefuses] at hAccepts
            cases hAccepts }
  | started hPhase =>
      exact hAdmits.goOn rfl rfl fun _ => by rw [hPhase]; rfl
  | underway hPhase => exact hAdmits.goOn rfl rfl id
  | commenced hPhase =>
      exact hAdmits.goOn rfl rfl fun _ => by rw [hPhase]; rfl
  | took envelope queue step hPhase hGoesOn hQueue hTaken =>
      exact hAdmits.goOn rfl rfl fun _ => by rw [hPhase]; rfl
  | completed kind remainder hPhase =>
      exact hAdmits.goOn rfl rfl fun _ => by rw [hPhase]; rfl
  | halted hPhase hStop => exact hAdmits.goOn rfl rfl nofun
  | waited hWaits => exact hAdmits.goOn rfl rfl id
  | woke kind remainder hPhase =>
      exact hAdmits.goOn rfl rfl fun _ => by rw [hPhase]; rfl
  | unmoved hPhase => exact hAdmits.goOn rfl rfl id
  | told => exact hAdmits.goOn rfl rfl id
  | givenUp hPhase => exact hAdmits.goOn rfl rfl nofun
  | released hPhase => exact hAdmits.goOn rfl rfl id

end Turns

------------------------------------------------------------
-- What A Mailbox Accounts For
------------------------------------------------------------

section Accounts

variable {source : Mailbox S P K}
variable [DecidableEq K]
variable [Payload P K]

/-
  A mailbox that was `source` at first accounts for every
  message that it accepted. Its worker took the first of
  them, and as long as it accepts messages the others wait.
  With what the handler at work is still to do, all that
  there is comes of the messages that were taken.
-/
structure Accounts
    (source : Mailbox S P K)
    (run : MailboxRun ι S P K) : Prop where
  registry : run.mailbox.registry = source.registry
  sink : run.mailbox.sink = source.sink
  ended :
    run.mailbox.phase.isOver = true →
      run.mailbox.phase = .stopped ∧
        run.mailbox.stopRequested = true ∧
          run.mailbox.queue = []
  taken : run.dispatched <+: run.accepted.map Prod.snd
  waiting :
    run.mailbox.phase.accepts = true →
      run.accepted.map Prod.snd =
        run.dispatched ++ run.mailbox.queue
  idle :
    run.mailbox.phase.fate? ≠ some .started →
      run.dispatched = []
  upshot :
    (⟨run.mailbox.state, run.mailbox.unhandled,
      run.effects ++ run.mailbox.phase.pendingEffects⟩ :
        Upshot S P) =
      source.upshot run.dispatched

theorem Accounts.moveOn
    (hAccounts : Accounts source run)
    {phase : Phase P K}
    {effects : List (Effect P)}
    (hAccepts : run.mailbox.phase.accepts = true)
    (hOver : phase.isOver = false)
    (hFate : phase.fate? = some .started)
    (hEffects :
      effects ++ phase.pendingEffects =
        run.effects ++ run.mailbox.phase.pendingEffects) :
    Accounts source
      { run with
        mailbox := { run.mailbox with phase := phase }
        effects := effects } :=
  { hAccounts with
    ended := fun hIs => by
      rw [hOver] at hIs
      cases hIs
    waiting := fun _ => hAccounts.waiting hAccepts
    idle := fun hNot => absurd hFate hNot
    upshot := by
      rw [← hAccounts.upshot, ← hEffects] }

/- A signal alone changes nothing. -/
theorem Accounts.tell
    (hAccounts : Accounts source run) :
    Accounts source
      { run with
        mailbox := { run.mailbox with stopRequested := true } } :=
  { hAccounts with
    ended := fun hIs =>
      ⟨(hAccounts.ended hIs).1, rfl, (hAccounts.ended hIs).2.2⟩ }

theorem Accounts.take
    (hAccounts : Accounts source run)
    {envelope : Envelope P}
    {queue : List (Envelope P)}
    {step : Mailbox.Step S P K}
    (hPhase : run.mailbox.phase = .awake)
    (hQueue : run.mailbox.queue = envelope :: queue)
    (hTaken :
      Mailbox.Taken { run.mailbox with queue := queue } envelope
        step) :
    Accounts source
      { run with
        mailbox := step.mailbox
        dispatched := run.dispatched ++ [envelope]
        effects := run.effects ++ step.effects } := by
  have hWaiting :
      run.accepted.map Prod.snd =
        run.dispatched ++ [envelope] ++ step.mailbox.queue := by
    rw [hAccounts.waiting (by rw [hPhase]; rfl), hQueue,
      hTaken.queue, List.append_assoc]
    rfl
  have hAbsorb :
      Mailbox.absorb { run.mailbox with queue := queue } =
        source.absorb :=
    Mailbox.absorb_congr hAccounts.registry hAccounts.sink
  have hBefore := hAccounts.upshot
  rw [hPhase] at hBefore
  exact
    { registry := hTaken.registry.trans hAccounts.registry
      sink := hTaken.sink.trans hAccounts.sink
      ended := fun hIs => by
        rw [hTaken.goesOn.1] at hIs
        cases hIs
      taken := ⟨step.mailbox.queue, hWaiting.symm⟩
      waiting := fun _ => hWaiting
      idle := fun hNot => absurd hTaken.goesOn.2 hNot
      upshot := by
        have hAfter := hTaken.absorbed run.effects
        rw [hAbsorb] at hAfter
        rw [Mailbox.upshot_concat, ← hBefore, List.append_assoc,
          hAfter]
        simp [Phase.pendingEffects] }

/- A mailbox accounts for its messages after every turn. -/
theorem Accounts.turn
    (hTurn : Turn run act next)
    (hAccounts : Accounts source run) :
    Accounts source next := by
  cases hTurn with
  | accepted sender envelope hAccepts =>
      have hNotOver :=
        ((Phase.accepts_eq_true_iff _).mp hAccepts).1
      have hWaiting :
          (run.accepted ++ [(sender, envelope)]).map Prod.snd =
            run.dispatched ++
              (run.mailbox.queue ++ [envelope]) := by
        rw [List.map_append, hAccounts.waiting hAccepts,
          List.append_assoc]
        rfl
      exact
        { hAccounts with
          ended := fun hIs => by
            rw [hNotOver] at hIs
            cases hIs
          taken := ⟨_, hWaiting.symm⟩
          waiting := fun _ => hWaiting }
  | refused sender envelope hRefuses => exact hAccounts
  | started hPhase =>
      exact
        hAccounts.moveOn (by rw [hPhase]; rfl) rfl rfl
          (by rw [hPhase]; rfl)
  | underway hPhase => exact hAccounts
  | commenced hPhase =>
      exact
        hAccounts.moveOn (by rw [hPhase]; rfl) rfl rfl
          (by rw [hPhase]; rfl)
  | took envelope queue step hPhase hGoesOn hQueue hTaken =>
      exact hAccounts.take hPhase hQueue hTaken
  | completed kind remainder hPhase =>
      exact
        hAccounts.moveOn (by rw [hPhase]; rfl) rfl rfl
          (by rw [hPhase]; exact List.append_nil _)
  | halted hPhase hStop =>
      exact
        { hAccounts with
          ended := fun _ => ⟨rfl, hStop, rfl⟩
          waiting := nofun
          idle := fun hNot => absurd rfl hNot
          upshot := by
            rw [← hAccounts.upshot, hPhase]
            rfl }
  | waited hWaits => exact hAccounts
  | woke kind remainder hPhase =>
      exact
        hAccounts.moveOn (by rw [hPhase]; rfl) rfl rfl
          (by rw [hPhase]; rfl)
  | unmoved hPhase => exact hAccounts
  | told => exact hAccounts.tell
  | givenUp hPhase =>
      exact
        { hAccounts with
          ended := nofun
          waiting := nofun
          idle := fun _ =>
            hAccounts.idle (by rw [hPhase]; nofun)
          upshot := by
            rw [← hAccounts.upshot, hPhase]
            rfl }
  | released hPhase => exact hAccounts.tell

end Accounts

------------------------------------------------------------
-- Sound Runs
------------------------------------------------------------

section Sound

variable {source : Mailbox S P K}
variable [DecidableEq K]
variable [Payload P K]

/- All of the above at once. -/
structure Sound
    (source : Mailbox S P K)
    (acts : List (MailboxAct ι P))
    (run : MailboxRun ι S P K) : Prop where
  stands : Stands acts run
  admits : Admits acts run
  accounts : Accounts source run

/- Whatever happens in a sound run is one of the turns. -/
theorem Sound.turn
    (hSink : source.sink.IsSafe)
    (hSound : Sound source acts run)
    (act : MailboxAct ι P) :
    Turn run act (run.act act) := by
  apply turn_act
  rw [hSound.accounts.sink]
  exact hSink

theorem Sound.step
    (hSink : source.sink.IsSafe)
    (hSound : Sound source acts run)
    (act : MailboxAct ι P) :
    Sound source (acts ++ [act]) (run.act act) := by
  have hTurn := hSound.turn hSink act
  exact
    { stands := hSound.stands.turn hTurn
      admits := hSound.admits.turn hTurn
      accounts := hSound.accounts.turn hTurn }

/- The worker of a started mailbox that was told heard it. -/
theorem Sound.stopRequested
    (hSound : Sound source acts run)
    (hFate : fateOf? acts = some .started)
    (hTold : isTold acts = true) :
    run.mailbox.stopRequested = true := by
  rcases hSound.stands.told.mp hTold with hStop | hGivenUp
  · exact hStop
  · rw [hSound.stands.fate, hFate] at hGivenUp
    cases hGivenUp

/- A worker that has not been told to stop goes on. -/
theorem Sound.goesOn
    (hSound : Sound source acts run)
    (hTold : isTold acts = false) :
    run.mailbox.stopRequested = false ∧
      run.mailbox.phase.accepts = true := by
  have hNone :
      ¬ (run.mailbox.stopRequested = true ∨
        run.mailbox.phase.fate? = some .givenUp) := by
    rw [← hSound.stands.told, hTold]
    exact Bool.false_ne_true
  have hStop : run.mailbox.stopRequested = false :=
    Bool.eq_false_iff.mpr fun hStop => hNone (.inl hStop)
  refine ⟨hStop, (Phase.accepts_eq_true_iff _).mpr ⟨?_, ?_⟩⟩
  · refine Bool.eq_false_iff.mpr fun hOver => ?_
    exact hNone (.inl (hSound.accounts.ended hOver).2.1)
  · exact fun hGivenUp => hNone (.inr hGivenUp)

/- A worker that has been told to stop takes no more messages. -/
theorem Sound.dispatched_act
    (hSink : source.sink.IsSafe)
    (hSound : Sound source acts run)
    (hTold : isTold acts = true)
    (act : MailboxAct ι P) :
    (run.act act).dispatched = run.dispatched := by
  have hTurn := hSound.turn hSink act
  generalize run.act act = next at hTurn ⊢
  cases hTurn with
  | took envelope queue step hPhase hGoesOn hQueue hTaken =>
      rcases hSound.stands.told.mp hTold with hStop | hGivenUp
      · rw [hGoesOn] at hStop
        cases hStop
      · rw [hPhase] at hGivenUp
        cases hGivenUp
  | _ => rfl

/- And so it is for ever. -/
theorem Sound.dispatched_follow
    (hSink : source.sink.IsSafe)
    (hSound : Sound source acts run)
    (hTold : isTold acts = true)
    (more : List (MailboxAct ι P)) :
    (run.follow more).dispatched = run.dispatched := by
  induction more generalizing acts run with
  | nil => rfl
  | cons act more ih =>
      have hStill : isTold (acts ++ [act]) = true := by
        rw [isTold_append, hTold, Bool.true_or]
      have hRest := ih (hSound.step hSink act) hStill
      have hFirst := hSound.dispatched_act hSink hTold act
      exact hRest.trans hFirst

end Sound

end MailboxRun

end OrderDesk
