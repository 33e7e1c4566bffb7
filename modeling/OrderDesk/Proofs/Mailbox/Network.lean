import Mathlib.Data.List.Basic
import OrderDesk.Mailbox.Network
import OrderDesk.Proofs.Mailbox.Delivery

/-
  This file proves that nothing happens to the mailboxes of
  a network but what can happen to a mailbox. What a network
  does to one of them is a run of that mailbox, so what is
  proved of runs holds of mailboxes that send one another
  messages in the course of time.

  The runs of all mailboxes fit together: what one receives
  from another is what a handler of the other has sent, in
  the order of sending, and what is noted is what handlers
  have noted.

  Unhandled messages may be taken out of a mailbox at any
  time. A run of a mailbox knows nothing of that, so it is
  compared with the mailbox as if they were put back.

  Key definitions include:
    * `Mailbox.putBack`
    * `NetworkDeed`
    * `Network.undergo`
    * `Network.Undergoes`
    * `Network.IsMadeOfRuns`

  Key theorems include:
    * `MailboxRun.Resumes.act`
    * `Network.Undergoes.trans`
    * `Network.leadsTo_turn`
    * `Network.leadsTo_advanceTo`
    * `Network.exists_runs_undergo`
    * `Network.exists_runs_stop`
-/

namespace OrderDesk

variable {ι S P K : Type}

------------------------------------------------------------
-- Messages That Are Taken Out
------------------------------------------------------------

namespace Mailbox

/- The mailbox with unhandled messages put back in front. -/
def putBack
    (taken : List (Envelope P))
    (mailbox : Mailbox S P K) : Mailbox S P K :=
  { mailbox with unhandled := taken ++ mailbox.unhandled }

theorem putBack_putBack
    (first second : List (Envelope P))
    (mailbox : Mailbox S P K) :
    (mailbox.putBack second).putBack first =
      mailbox.putBack (first ++ second) := by
  simp [putBack]

theorem putBack_takeUnhandled
    (mailbox : Mailbox S P K) :
    mailbox.takeUnhandled.2.putBack mailbox.takeUnhandled.1 =
      mailbox := by
  simp [putBack, takeUnhandled]

section Worker

variable [DecidableEq K]
variable [Payload P K]

/- A worker does not look at messages that nobody handled. -/
theorem take_putBack
    (taken : List (Envelope P))
    (mailbox : Mailbox S P K)
    (envelope : Envelope P) :
    (mailbox.putBack taken).take envelope =
      { mailbox.take envelope with
        mailbox := (mailbox.take envelope).mailbox.putBack taken } := by
  have hDispatch :
      (mailbox.putBack taken).registry.dispatch
          (mailbox.putBack taken).state envelope =
        mailbox.registry.dispatch mailbox.state envelope :=
    rfl
  unfold take
  rw [hDispatch]
  cases mailbox.registry.dispatch mailbox.state envelope with
  | ok reaction =>
      by_cases hRest : reaction.rest = 0
      · simp only [follow, if_pos hRest]
        rfl
      · simp only [follow, if_neg hRest]
        rfl
  | error back =>
      cases hSink : mailbox.sink with
      | collect => simp [discard, putBack, hSink]
      | custom dispose =>
          cases hPanics : (dispose back).panics <;>
            simp [discard, putBack, hSink, hPanics]

theorem step?_putBack
    (taken : List (Envelope P))
    (mailbox : Mailbox S P K) :
    (mailbox.putBack taken).step? =
      mailbox.step?.map fun step =>
        { step with mailbox := step.mailbox.putBack taken } := by
  have hPhase : (mailbox.putBack taken).phase = mailbox.phase := rfl
  have hStop :
      (mailbox.putBack taken).stopRequested =
        mailbox.stopRequested :=
    rfl
  have hQueue : (mailbox.putBack taken).queue = mailbox.queue := rfl
  unfold step?
  rw [hPhase, hStop, hQueue]
  cases mailbox.phase with
  | awake =>
      cases mailbox.stopRequested with
      | true => rfl
      | false =>
          cases mailbox.queue with
          | nil => rfl
          | cons envelope queue =>
              exact
                congrArg some
                  (take_putBack taken
                    { mailbox with
                      queue := queue,
                      phase := .awake,
                      stopRequested := false }
                    envelope)
  | _ => rfl

theorem after_send
    (mailbox : Mailbox S P K)
    (sender : ι)
    (envelope : Envelope P) :
    (mailbox.after [.send sender envelope]).mailbox =
        (mailbox.send? envelope).getD mailbox ∧
      (mailbox.after [.send sender envelope]).effects = [] := by
  dsimp only [after, MailboxRun.follow, List.foldl_cons,
    MailboxRun.act, MailboxRun.begin]
  cases mailbox.send? envelope <;> exact ⟨rfl, rfl⟩

theorem after_work
    {mailbox : Mailbox S P K}
    {step : Step S P K}
    (hStep : mailbox.step? = some step) :
    (mailbox.after [(.work : MailboxAct ι P)]).mailbox =
        step.mailbox ∧
      (mailbox.after [(.work : MailboxAct ι P)]).effects =
        step.effects := by
  dsimp only [after, MailboxRun.follow, List.foldl_cons,
    MailboxRun.act, MailboxRun.begin]
  rw [hStep]
  exact ⟨rfl, rfl⟩

end Worker

end Mailbox

namespace MailboxRun

/-
  A run resumes another one: it may have had effects before,
  and messages that were taken out of the other one's mailbox
  are still in its own.
-/
structure Resumes
    (taken : List (Envelope P))
    (earlier : List (Effect P))
    (run other : MailboxRun ι S P K) : Prop where
  mailbox : run.mailbox = other.mailbox.putBack taken
  effects : run.effects = earlier ++ other.effects

variable [DecidableEq K]
variable [Payload P K]
variable {taken : List (Envelope P)} {earlier : List (Effect P)}
variable {run other : MailboxRun ι S P K}

theorem Resumes.act
    (hResumes : Resumes taken earlier run other)
    (act : MailboxAct ι P) :
    Resumes taken earlier (run.act act) (other.act act) := by
  rcases hResumes with ⟨hMailbox, hEffects⟩
  cases act with
  | send sender envelope =>
      have hSend :
          run.mailbox.send? envelope =
            (other.mailbox.send? envelope).map
              (Mailbox.putBack taken) := by
        rw [hMailbox]
        cases hAccepts : other.mailbox.phase.accepts <;>
          simp [Mailbox.send?, Mailbox.putBack, hAccepts]
      unfold MailboxRun.act
      dsimp only
      rw [hSend]
      cases other.mailbox.send? envelope with
      | none => exact ⟨hMailbox, hEffects⟩
      | some mailbox => exact ⟨rfl, hEffects⟩
  | work =>
      have hStep := Mailbox.step?_putBack taken other.mailbox
      rw [← hMailbox] at hStep
      unfold MailboxRun.act
      dsimp only
      rw [hStep]
      cases other.mailbox.step? with
      | none => exact ⟨hMailbox, hEffects⟩
      | some step =>
          refine ⟨rfl, ?_⟩
          dsimp only [Option.map_some]
          rw [hEffects, List.append_assoc]
  | start =>
      refine ⟨?_, hEffects⟩
      dsimp only [MailboxRun.act]
      rw [hMailbox]
      unfold Mailbox.start
      dsimp only [Mailbox.putBack]
      split <;> rfl
  | wake =>
      refine ⟨?_, hEffects⟩
      dsimp only [MailboxRun.act]
      rw [hMailbox]
      unfold Mailbox.wake
      dsimp only [Mailbox.putBack]
      split <;> rfl
  | stop =>
      refine ⟨?_, hEffects⟩
      dsimp only [MailboxRun.act]
      rw [hMailbox]
      rfl
  | drop =>
      refine ⟨?_, hEffects⟩
      dsimp only [MailboxRun.act]
      rw [hMailbox]
      unfold Mailbox.drop
      dsimp only [Mailbox.putBack]
      split <;> rfl

theorem Resumes.follow
    (hResumes : Resumes taken earlier run other)
    (acts : List (MailboxAct ι P)) :
    Resumes taken earlier (run.follow acts) (other.follow acts) := by
  induction acts generalizing run other with
  | nil => exact hResumes
  | cons act acts ih => exact ih (hResumes.act act)

end MailboxRun

------------------------------------------------------------
-- What Happens Under Names
------------------------------------------------------------

/- What is entered under a name, oldest first. -/
def under
    {α : Type}
    (name : String)
    (entries : List (String × α)) : List α :=
  entries.filterMap fun (other, entry) =>
    if other = name then some entry else none

theorem under_append
    {α : Type}
    (name : String)
    (first second : List (String × α)) :
    under name (first ++ second) =
      under name first ++ under name second :=
  List.filterMap_append

theorem under_singleton
    {α : Type}
    (name other : String)
    (entry : α) :
    under name [(other, entry)] =
      if other = name then [entry] else [] := by
  unfold under
  split <;> simp [*]

theorem under_map_self
    {α : Type}
    (name : String)
    (entries : List α) :
    under name (entries.map fun entry => (name, entry)) =
      entries := by
  simp [under, List.filterMap_map]

theorem under_map_of_ne
    {α : Type}
    {name other : String}
    (hOther : other ≠ name)
    (entries : List α) :
    under other (entries.map fun entry => (name, entry)) = [] := by
  simp [under, List.filterMap_map, hOther.symm]

/- What a handler of a component notes. -/
def noteOf? :
    String × Effect P → Option (String × String × Option Category)
| (component, .note text category) =>
    some (component, text, category)
| _ => none

/- From whom to whom a payload goes, if an effect sends one. -/
def shipment? :
    String × Effect P → Option (String × String × P)
| (_, .note _ _) => none
| (component, .emit target payload) =>
    some (component, target, payload)
| (component, .pass target envelope) =>
    some (component, target, envelope.payload)

/- From whom to whom a payload comes, if a component sends it. -/
def receipt? :
    String × MailboxAct (Option String) P →
      Option (String × String × P)
| (target, .send (some component) envelope) =>
    some (component, target, envelope.payload)
| _ => none

/- What is sent to a mailbox by somebody else. -/
def request? :
    String × MailboxAct (Option String) P →
      Option (String × Envelope P)
| (target, .send none envelope) => some (target, envelope)
| _ => none

/- What a note says, and who took it. -/
def Note.entry
    (note : Note) : String × String × Option Category :=
  (note.component, note.text, note.category)

------------------------------------------------------------
-- Mailboxes By Name
------------------------------------------------------------

namespace Network

variable {network before middle after : Network S P K}

theorem lookup_map_if
    {α : Type}
    (f : α → α)
    (name other : String)
    (entries : List (String × α)) :
    (entries.map fun (key, entry) =>
        (key, if key = name then f entry else entry)).lookup other =
      if other = name then
        (entries.lookup other).map f
      else
        entries.lookup other := by
  induction entries with
  | nil => simp
  | cons entry entries ih =>
      rcases entry with ⟨key, entry⟩
      rw [List.map_cons, List.lookup_cons, List.lookup_cons, ih]
      by_cases hKey : other = key
      · subst hKey
        by_cases hName : other = name <;> simp [hName]
      · simp [beq_false_of_ne hKey]

theorem mailbox?_modify_self
    (name : String)
    (f : Mailbox S P K → Mailbox S P K)
    (network : Network S P K) :
    (network.modify name f).mailbox? name =
      (network.mailbox? name).map f := by
  unfold modify mailbox?
  rw [lookup_map_if, if_pos rfl]

theorem mailbox?_modify_of_ne
    {name other : String}
    (hOther : other ≠ name)
    (f : Mailbox S P K → Mailbox S P K)
    (network : Network S P K) :
    (network.modify name f).mailbox? other =
      network.mailbox? other := by
  unfold modify mailbox?
  rw [lookup_map_if, if_neg hOther]

theorem mailbox?_awaken
    (name other : String)
    (network : Network S P K) :
    (network.awaken name).mailbox? other =
      network.mailbox? other := by
  unfold awaken
  split <;> rfl

theorem notes_awaken
    (name : String)
    (network : Network S P K) :
    (network.awaken name).notes = network.notes := by
  unfold awaken
  split <;> rfl

------------------------------------------------------------
-- What A Network Undergoes
------------------------------------------------------------

variable [DecidableEq K]
variable [Payload P K]

/-
  What happens at a network for a while, each entry under the
  name of a mailbox: what happens to mailboxes, which effects
  their handlers have, which of these are performed, and what
  is taken out of mailboxes.
-/
structure Undergoes
    (acts : List (String × MailboxAct (Option String) P))
    (made done : List (String × Effect P))
    (taken : List (String × Envelope P))
    (before after : Network S P K) : Prop where
  mailbox :
    ∀ name mailbox,
      before.mailbox? name = some mailbox →
        ∃ left,
          after.mailbox? name = some left ∧
            (mailbox.after (under name acts)).mailbox =
                left.putBack (under name taken) ∧
              (mailbox.after (under name acts)).effects =
                under name made
  noted :
    after.notes.map Note.entry =
      before.notes.map Note.entry ++ done.filterMap noteOf?
  sent : acts.filterMap receipt? = done.filterMap shipment?

/- What happens to no mailbox leaves all of them as they are. -/
theorem Undergoes.of_eq
    (hMailboxes : after.mailboxes = before.mailboxes)
    (hNotes : after.notes = before.notes) :
    Undergoes [] [] [] [] before after where
  mailbox name mailbox hMailbox := by
    refine ⟨mailbox, ?_, rfl, rfl⟩
    unfold mailbox? at hMailbox ⊢
    rw [hMailboxes, hMailbox]
  noted := by rw [hNotes, List.filterMap_nil, List.append_nil]
  sent := rfl

/- A network goes on with what has happened to it so far. -/
theorem Undergoes.trans
    {acts acts' : List (String × MailboxAct (Option String) P)}
    {made made' done done' : List (String × Effect P)}
    {taken taken' : List (String × Envelope P)}
    (hFirst : Undergoes acts made done taken before middle)
    (hRest : Undergoes acts' made' done' taken' middle after) :
    Undergoes (acts ++ acts') (made ++ made') (done ++ done')
      (taken ++ taken') before after where
  mailbox name mailbox hMailbox := by
    rcases hFirst.mailbox name mailbox hMailbox with
      ⟨halfway, hHalfway, hRan, hEffects⟩
    rcases hRest.mailbox name halfway hHalfway with
      ⟨left, hLeft, hRanOn, hMore⟩
    have hResumes :
        MailboxRun.Resumes (under name taken) (under name made)
          (mailbox.after (under name acts))
          (MailboxRun.begin halfway) :=
      ⟨hRan, by rw [hEffects]; exact (List.append_nil _).symm⟩
    have hLast := hResumes.follow (under name acts')
    refine ⟨left, hLeft, ?_, ?_⟩
    · rw [under_append, Mailbox.after_append, hLast.mailbox]
      change
        ((halfway.after (under name acts')).mailbox).putBack _ = _
      rw [hRanOn, Mailbox.putBack_putBack, ← under_append]
    · rw [under_append, Mailbox.after_append, hLast.effects]
      change _ ++ (halfway.after (under name acts')).effects = _
      rw [hMore, ← under_append]
  noted := by
    rw [hRest.noted, hFirst.noted, List.append_assoc,
      List.filterMap_append]
  sent := by
    rw [List.filterMap_append, List.filterMap_append, hFirst.sent,
      hRest.sent]

/- Something happens to one mailbox. -/
theorem Undergoes.of_act
    {name : String}
    {act : MailboxAct (Option String) P}
    {done : List (String × Effect P)}
    (effects : List (Effect P))
    (hSelf :
      ∀ mailbox,
        before.mailbox? name = some mailbox →
          after.mailbox? name =
              some (mailbox.after [act]).mailbox ∧
            (mailbox.after [act]).effects = effects)
    (hOthers :
      ∀ other,
        other ≠ name → after.mailbox? other = before.mailbox? other)
    (hNoted :
      after.notes.map Note.entry =
        before.notes.map Note.entry ++ done.filterMap noteOf?)
    (hSent :
      [(name, act)].filterMap receipt? = done.filterMap shipment?) :
    Undergoes [(name, act)]
      (effects.map fun effect => (name, effect)) done [] before
      after where
  mailbox other mailbox hMailbox := by
    by_cases hName : other = name
    · subst hName
      rcases hSelf mailbox hMailbox with ⟨hLeft, hEffects⟩
      rw [under_singleton, if_pos rfl, under_map_self]
      exact ⟨_, hLeft, rfl, hEffects⟩
    · rw [under_singleton, if_neg (Ne.symm hName),
        under_map_of_ne hName]
      exact ⟨mailbox, (hOthers other hName).trans hMailbox, rfl, rfl⟩
  noted := hNoted
  sent := hSent

/- A message is one thing that happens to its receiver. -/
theorem undergoes_deliver
    (sender : Option String)
    (target : String)
    (envelope : Envelope P)
    {done : List (String × Effect P)}
    (hNoted : done.filterMap noteOf? = [])
    (hSent :
      [(target, MailboxAct.send sender envelope)].filterMap
          receipt? =
        done.filterMap shipment?)
    (network : Network S P K) :
    Undergoes [(target, .send sender envelope)] [] done [] network
      (network.deliver target envelope).2 := by
  unfold deliver
  cases hSend :
      (network.mailbox? target).bind (·.send? envelope) with
  | none =>
      refine .of_act [] ?_ (fun _ _ => rfl) ?_ hSent
      · intro mailbox hMailbox
        rw [hMailbox, Option.bind_some] at hSend
        rw [(mailbox.after_send sender envelope).1, hSend]
        exact ⟨hMailbox, (mailbox.after_send sender envelope).2⟩
      · rw [hNoted, List.append_nil]
        rfl
  | some received =>
      refine .of_act [] ?_ ?_ ?_ hSent
      · intro mailbox hMailbox
        rw [hMailbox, Option.bind_some] at hSend
        rw [(mailbox.after_send sender envelope).1, hSend]
        dsimp only
        rw [mailbox?_awaken, mailbox?_modify_self, hMailbox]
        exact ⟨rfl, (mailbox.after_send sender envelope).2⟩
      · intro other hOther
        dsimp only
        rw [mailbox?_awaken, mailbox?_modify_of_ne hOther]
      · rw [hNoted, List.append_nil]
        dsimp only
        rw [notes_awaken]
        rfl

/- An effect is noted, or happens to the mailbox that it sends to. -/
theorem exists_undergoes_perform
    (component : String)
    (network : Network S P K)
    (effect : Effect P) :
    ∃ acts,
      Undergoes acts [] [(component, effect)] [] network
          (network.perform component effect) ∧
        acts.filterMap request? = [] := by
  cases effect with
  | note text category =>
      refine ⟨[], ⟨?_, ?_, rfl⟩, rfl⟩
      · exact fun name mailbox hMailbox =>
          ⟨mailbox, hMailbox, rfl, rfl⟩
      · exact List.map_append
  | emit target payload =>
      rcases hStamp : network.stamps.next network.now with
        ⟨stamp, stamps⟩
      refine
        ⟨[(target,
          .send (some component) (Envelope.event stamp payload))],
          ?_, rfl⟩
      unfold perform
      rw [hStamp]
      have hQuiet :
          Undergoes [] [] [] [] network
            { network with stamps := stamps } :=
        .of_eq rfl rfl
      exact hQuiet.trans (undergoes_deliver _ _ _ rfl rfl _)
  | pass target envelope =>
      exact
        ⟨[(target, .send (some component) envelope)],
          undergoes_deliver _ _ _ rfl rfl network, rfl⟩

theorem exists_undergoes_performAll
    (component : String)
    (effects : List (Effect P))
    (network : Network S P K) :
    ∃ acts,
      Undergoes acts []
          (effects.map fun effect => (component, effect)) []
          network (effects.foldl (perform component) network) ∧
        acts.filterMap request? = [] := by
  induction effects generalizing network with
  | nil => exact ⟨[], .of_eq rfl rfl, rfl⟩
  | cons effect effects ih =>
      rcases exists_undergoes_perform component network effect with
        ⟨acts, hFirst, hNone⟩
      rcases ih (network.perform component effect) with
        ⟨more, hRest, hNoMore⟩
      refine ⟨acts ++ more, hFirst.trans hRest, ?_⟩
      rw [List.filterMap_append, hNone, hNoMore]
      rfl

------------------------------------------------------------
-- What A Network Does
------------------------------------------------------------

/-
  A network comes from one state to another, and all effects
  that handlers have on the way are performed. What others
  send to mailboxes and take out of them is told.
-/
def LeadsTo
    (requests taken : List (String × Envelope P))
    (before after : Network S P K) : Prop :=
  ∃ acts effects,
    Undergoes acts effects effects taken before after ∧
      acts.filterMap request? = requests

theorem LeadsTo.of_eq
    (hMailboxes : after.mailboxes = before.mailboxes)
    (hNotes : after.notes = before.notes) :
    LeadsTo [] [] before after :=
  ⟨[], [], .of_eq hMailboxes hNotes, rfl⟩

theorem LeadsTo.refl
    (network : Network S P K) :
    LeadsTo [] [] network network :=
  .of_eq rfl rfl

theorem LeadsTo.trans
    {requests requests' taken taken' : List (String × Envelope P)}
    (hFirst : LeadsTo requests taken before middle)
    (hRest : LeadsTo requests' taken' middle after) :
    LeadsTo (requests ++ requests') (taken ++ taken') before
      after := by
  rcases hFirst with ⟨acts, effects, hFirst, rfl⟩
  rcases hRest with ⟨more, moreEffects, hRest, rfl⟩
  exact
    ⟨acts ++ more, effects ++ moreEffects, hFirst.trans hRest,
      List.filterMap_append⟩

/- A network is taken through a list, one entry at a time. -/
theorem leadsTo_foldl
    {α : Type}
    {take : Network S P K → α → Network S P K}
    {requests : α → List (String × Envelope P)}
    (hTake :
      ∀ network entry,
        LeadsTo (requests entry) [] network (take network entry))
    (entries : List α)
    (network : Network S P K) :
    LeadsTo (entries.flatMap requests) [] network
      (entries.foldl take network) := by
  induction entries generalizing network with
  | nil => exact .refl network
  | cons entry entries ih =>
      exact (hTake network entry).trans (ih (take network entry))

/- Something is done to a mailbox that is no message to it. -/
theorem leadsTo_modify
    (f : Mailbox S P K → Mailbox S P K)
    (act : MailboxAct (Option String) P)
    (hSent : act.sent? = none)
    (hAct :
      ∀ mailbox : Mailbox S P K,
        (mailbox.after [act]).mailbox = f mailbox ∧
          (mailbox.after [act]).effects = [])
    (name : String)
    (network : Network S P K) :
    LeadsTo [] [] network ((network.modify name f).awaken name) := by
  have hNothing :
      [(name, act)].filterMap receipt? = [] ∧
        [(name, act)].filterMap request? = [] := by
    cases act <;> cases hSent <;> exact ⟨rfl, rfl⟩
  refine ⟨[(name, act)], [], ?_, hNothing.2⟩
  refine .of_act [] ?_ ?_ ?_ hNothing.1
  · intro mailbox hMailbox
    rw [mailbox?_awaken, mailbox?_modify_self, hMailbox]
    exact ⟨congrArg some (hAct mailbox).1.symm, (hAct mailbox).2⟩
  · intro other hOther
    rw [mailbox?_awaken, mailbox?_modify_of_ne hOther]
  · rw [notes_awaken]
    exact (List.append_nil _).symm

/- A worker takes a step, and what comes of it is done. -/
theorem leadsTo_follow
    {name : String}
    {mailbox : Mailbox S P K}
    {step : Mailbox.Step S P K}
    (hMailbox : network.mailbox? name = some mailbox)
    (hStep : mailbox.step? = some step) :
    LeadsTo [] [] network (network.follow name step) := by
  have hWork :
      Undergoes [(name, .work)]
        (step.effects.map fun effect => (name, effect)) [] []
        network (network.modify name fun _ => step.mailbox) := by
    refine
      .of_act step.effects ?_
        (fun _ hOther => mailbox?_modify_of_ne hOther _ _)
        (List.append_nil _).symm rfl
    intro other hOther
    cases hMailbox.symm.trans hOther
    rw [mailbox?_modify_self, hMailbox,
      (Mailbox.after_work hStep).1]
    exact ⟨rfl, (Mailbox.after_work hStep).2⟩
  have hRest :
      ∀ network : Network S P K,
        Undergoes [] [] [] [] network
          (network.repose name step.rest) := by
    intro network
    unfold repose
    split <;> exact .of_eq rfl rfl
  have hNotice :
      ∀ network : Network S P K,
        Undergoes [] [] [] [] network
          (network.tell step.notice) :=
    fun _ => .of_eq rfl rfl
  have hBegun := hWork.trans (hRest _)
  rcases exists_undergoes_performAll name step.effects _ with
    ⟨acts, hEffects, hNone⟩
  have hAll := (hBegun.trans hEffects).trans (hNotice _)
  simp only [List.append_nil, List.nil_append] at hAll
  exact ⟨[(name, .work)] ++ acts, _, hAll, hNone⟩

/- The worker whose turn it is takes a step, or waits. -/
theorem leadsTo_turn
    (name : String)
    (network : Network S P K) :
    LeadsTo [] [] network (network.turn name) := by
  unfold turn
  cases hStep : (network.mailbox? name).bind (·.step?) with
  | none => exact .of_eq rfl rfl
  | some step =>
      rcases Option.bind_eq_some_iff.mp hStep with
        ⟨mailbox, hMailbox, hStep⟩
      exact leadsTo_follow hMailbox hStep

theorem leadsTo_run
    (n : Nat)
    (network : Network S P K) :
    LeadsTo [] [] network (network.run n) := by
  induction n generalizing network with
  | zero => exact .refl network
  | succ n ih =>
      unfold run
      split
      · exact .refl network
      · rename_i name _ _
        exact (leadsTo_turn name network).trans (ih _)

theorem leadsTo_settle
    (network : Network S P K) :
    LeadsTo [] [] network network.settle :=
  leadsTo_run network.patience network

/- All that is due at an instant happens to those who rest. -/
theorem leadsTo_wake
    (now : Nat)
    (network : Network S P K) :
    LeadsTo [] [] network (network.wake now) := by
  have hRouse :
      ∀ (network : Network S P K) (name : String),
        LeadsTo [] [] network (network.rouse name) :=
    fun network name =>
      leadsTo_modify (·.wake) .wake rfl (fun _ => ⟨rfl, rfl⟩) name
        network
  rcases hFire : network.timers.fire now with ⟨names, timers⟩
  unfold wake
  rw [hFire]
  have hQuiet :
      LeadsTo [] [] network
        { network with now := now, timers := timers } :=
    .of_eq rfl rfl
  have hRoused := leadsTo_foldl hRouse names
  rw [List.flatMap_eq_nil_iff.mpr fun _ _ => rfl] at hRoused
  exact (hQuiet.trans (hRoused _)).trans (leadsTo_settle _)

/- Time passes, with a stop at every deadline. -/
theorem leadsTo_advanceTo
    (target : Nat)
    (network : Network S P K) :
    LeadsTo [] [] network (network.advanceTo target) := by
  rcases Nat.le_total network.now target with hLater | hPast
  · exact
      Timed.advance_induction
        (fun _ (next : Network S P K) => LeadsTo [] [] network next)
        (fun last : Network S P K =>
          LeadsTo [] [] network { last with now := target })
        (fun _ _ deadline hLeads _ _ =>
          hLeads.trans (leadsTo_wake deadline _))
        (fun _ _ hLeads _ _ => hLeads.trans (.of_eq rfl rfl))
        hLater (.refl network)
  · unfold advanceTo
    rw [Timed.advance_of_le hPast]
    exact .of_eq rfl rfl

------------------------------------------------------------
-- What Is Done With A Network
------------------------------------------------------------

theorem send_snd
    (target : String)
    (envelopes : List (Envelope P))
    (network : Network S P K) :
    (network.send target envelopes).2 =
      (envelopes.foldl
        (fun network envelope => (network.deliver target envelope).2)
        network).settle := by
  unfold send
  dsimp only
  rw [← List.foldl_hom Prod.snd]
  intro before envelope
  rfl

theorem leadsTo_send
    (target : String)
    (envelopes : List (Envelope P))
    (network : Network S P K) :
    LeadsTo (envelopes.map fun envelope => (target, envelope)) []
      network (network.send target envelopes).2 := by
  have hDeliver :
      ∀ (network : Network S P K) (envelope : Envelope P),
        LeadsTo [(target, envelope)] [] network
          (network.deliver target envelope).2 :=
    fun network envelope =>
      ⟨_, [], undergoes_deliver none target envelope rfl rfl network,
        rfl⟩
  have hAll :=
    (leadsTo_foldl hDeliver envelopes network).trans
      (leadsTo_settle _)
  rw [← List.map_eq_flatMap, List.append_nil] at hAll
  rw [send_snd]
  exact hAll

theorem leadsTo_takeUnhandled
    (name : String)
    (network : Network S P K) :
    LeadsTo []
      ((network.takeUnhandled name).1.map fun envelope =>
        (name, envelope))
      network (network.takeUnhandled name).2 := by
  unfold takeUnhandled
  cases hMailbox : network.mailbox? name with
  | none => exact .refl network
  | some mailbox =>
      refine ⟨[], [], ⟨?_, (List.append_nil _).symm, rfl⟩, rfl⟩
      intro other found hFound
      by_cases hName : other = name
      · subst hName
        cases hMailbox.symm.trans hFound
        refine ⟨mailbox.takeUnhandled.2, ?_, ?_, rfl⟩
        · dsimp only
          rw [mailbox?_modify_self, hMailbox]
          rfl
        · dsimp only
          rw [under_map_self, Mailbox.putBack_takeUnhandled]
          rfl
      · refine ⟨found, ?_, ?_, rfl⟩
        · exact (mailbox?_modify_of_ne hName _ _).trans hFound
        · dsimp only
          rw [under_map_of_ne hName]
          rfl

end Network

/-
  What can be done with a network once its mailboxes are set
  up.
-/
inductive NetworkDeed (P : Type) where
  | send (target : String) (envelopes : List (Envelope P))
  | start (name : String)
  | stop (name : String)
  | drop (name : String)
  | takeUnhandled (name : String)
  | advance (ms : Nat)
  | jump (ms : Nat)

/- The messages that are sent, and to whom. -/
def NetworkDeed.requests :
    NetworkDeed P → List (String × Envelope P)
| .send target envelopes =>
    envelopes.map fun envelope => (target, envelope)
| _ => []

namespace Network

variable [DecidableEq K]
variable [Payload P K]

/- Do one thing. -/
def undertake
    (network : Network S P K) :
    NetworkDeed P → Network S P K
| .send target envelopes => (network.send target envelopes).2
| .start name => network.start name
| .stop name => (network.stop name).2
| .drop name => network.drop name
| .takeUnhandled name => (network.takeUnhandled name).2
| .advance ms => network.advance ms
| .jump ms => network.jump ms

/- The messages that are taken out, and of which mailbox. -/
def takings
    (network : Network S P K) :
    NetworkDeed P → List (String × Envelope P)
| .takeUnhandled name =>
    (network.takeUnhandled name).1.map fun envelope =>
      (name, envelope)
| _ => []

/- Do one thing after the other. -/
def undergo
    (network : Network S P K)
    (deeds : List (NetworkDeed P)) : Network S P K :=
  deeds.foldl undertake network

/- All messages that are taken out in the course of deeds. -/
def takenOut :
    Network S P K → List (NetworkDeed P) →
      List (String × Envelope P)
| _, [] => []
| network, deed :: deeds =>
    network.takings deed ++ (network.undertake deed).takenOut deeds

/- Whatever is done, mailboxes do what mailboxes can do. -/
theorem leadsTo_undertake
    (network : Network S P K)
    (deed : NetworkDeed P) :
    LeadsTo deed.requests (network.takings deed) network
      (network.undertake deed) := by
  cases deed with
  | send target envelopes =>
      exact leadsTo_send target envelopes network
  | start name =>
      have hStart :=
        leadsTo_modify (·.start) .start rfl
          (fun _ => ⟨rfl, rfl⟩) name network
      have hHold :
          LeadsTo [] [] network
            (((network.modify name (·.start)).awaken name).hold
              name) :=
        hStart.trans (.of_eq rfl rfl)
      exact hHold.trans (leadsTo_settle _)
  | stop name =>
      have hStop :=
        leadsTo_modify (·.requestStop) .stop rfl
          (fun _ => ⟨rfl, rfl⟩) name network
      have hWait :
          ∀ network : Network S P K,
            LeadsTo [] [] network (network.waitFor name) := by
        intro network
        unfold waitFor
        split
        · exact .refl network
        · exact leadsTo_advanceTo _ network
      exact
        ((hStop.trans (leadsTo_settle _)).trans (hWait _)).trans
          (.of_eq rfl rfl)
  | drop name =>
      have hDrop :=
        leadsTo_modify (·.drop) .drop rfl
          (fun _ => ⟨rfl, rfl⟩) name network
      exact (hDrop.trans (leadsTo_settle _)).trans (.of_eq rfl rfl)
  | takeUnhandled name => exact leadsTo_takeUnhandled name network
  | advance ms => exact leadsTo_advanceTo _ network
  | jump ms => exact leadsTo_wake _ network

theorem leadsTo_undergo
    (network : Network S P K)
    (deeds : List (NetworkDeed P)) :
    LeadsTo (deeds.flatMap NetworkDeed.requests)
      (network.takenOut deeds) network (network.undergo deeds) := by
  induction deeds generalizing network with
  | nil => exact .refl network
  | cons deed deeds ih =>
      exact
        (leadsTo_undertake network deed).trans
          (ih (network.undertake deed))

/-
  How deeds come out for the mailboxes of a network. Each of
  them ends up where a run of the mailbox leads, apart from
  unhandled messages that were taken out, and its handlers
  have had the effects of that run.

  The runs are made of what is done: what others send to a
  mailbox is what they were asked to send, what one mailbox
  receives from another is what a handler of the other has
  sent, and all that is noted is what handlers have noted.
-/
structure IsMadeOfRuns
    (network : Network S P K)
    (deeds : List (NetworkDeed P))
    (acts : List (String × MailboxAct (Option String) P))
    (effects : List (String × Effect P)) : Prop where
  ran :
    ∀ name mailbox,
      network.mailbox? name = some mailbox →
        ∃ left,
          (network.undergo deeds).mailbox? name = some left ∧
            (mailbox.after (under name acts)).mailbox =
                left.putBack (under name (network.takenOut deeds)) ∧
              (mailbox.after (under name acts)).effects =
                under name effects
  requested :
    acts.filterMap request? = deeds.flatMap NetworkDeed.requests
  sent : acts.filterMap receipt? = effects.filterMap shipment?
  noted :
    (network.undergo deeds).notes.map Note.entry =
      network.notes.map Note.entry ++ effects.filterMap noteOf?

/- Whatever is done with a network, its mailboxes have runs. -/
theorem exists_runs_undergo
    (network : Network S P K)
    (deeds : List (NetworkDeed P)) :
    ∃ acts effects, network.IsMadeOfRuns deeds acts effects := by
  rcases leadsTo_undergo network deeds with
    ⟨acts, effects, hUndergoes, hRequested⟩
  exact
    ⟨acts, effects, hUndergoes.mailbox, hRequested,
      hUndergoes.sent, hUndergoes.noted⟩

theorem IsMadeOfRuns.outcome_eq
    {network : Network S P K}
    {deeds : List (NetworkDeed P)}
    {acts : List (String × MailboxAct (Option String) P)}
    {effects : List (String × Effect P)}
    (hRuns : network.IsMadeOfRuns deeds acts effects)
    {name : String}
    {mailbox : Mailbox S P K}
    (hMailbox : network.mailbox? name = some mailbox) :
    (network.undergo deeds).outcome name =
      (mailbox.after (under name acts)).mailbox.outcome?.getD
        (.error ⟨name⟩) := by
  rcases hRuns.ran name mailbox hMailbox with ⟨left, hLeft, hRan, _⟩
  unfold outcome
  rw [hLeft, hRan]
  rfl

/-
  Whoever stops a mailbox of a network is handed back what is
  left in its run, if the worker has ended by then.
-/
theorem exists_runs_stop
    (network : Network S P K)
    (deeds : List (NetworkDeed P))
    {name : String}
    {mailbox : Mailbox S P K}
    (hMailbox : network.mailbox? name = some mailbox) :
    ∃ acts effects,
      network.IsMadeOfRuns (deeds ++ [.stop name]) acts effects ∧
        ((network.undergo deeds).stop name).1 =
          (mailbox.after (under name acts)).mailbox.outcome?.getD
            (.error ⟨name⟩) := by
  rcases network.exists_runs_undergo (deeds ++ [.stop name]) with
    ⟨acts, effects, hRuns⟩
  have hStop :
      network.undergo (deeds ++ [.stop name]) =
        ((network.undergo deeds).stop name).2 :=
    List.foldl_append
  refine ⟨acts, effects, hRuns, ?_⟩
  rw [← hRuns.outcome_eq hMailbox, hStop]
  rfl

end Network

end OrderDesk
