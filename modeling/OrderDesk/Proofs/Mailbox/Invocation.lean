import Mathlib.Data.List.Basic
import OrderDesk.Proofs.Mailbox.Guise

/-
  This file defines which handlers a worker invokes, and
  with what. A mailbox is watched by having every handler
  write down its own invocations beside the state of the
  component. At the same time each handler may end in
  another way than it does.

  Nothing else is different for a mailbox that is watched,
  so the record shows the invocations of the mailbox itself,
  and they do not depend on how handlers end.

  Key definitions include:
    * `Invocation`
    * `Handler.watched`
    * `Registry.invocation?`
    * `Mailbox.watched`
    * `MailboxRun.watched`
    * `MailboxRun.invocation?`

  Key theorems include:
    * `Registry.dispatch_watched`
    * `Mailbox.take_watched`
    * `MailboxRun.act_watched`
-/

namespace OrderDesk

variable {ι S P K : Type}

------------------------------------------------------------
-- Invocations
------------------------------------------------------------

/-
  An invocation: the handler, the state that it finds, and
  the message that it is given.
-/
structure Invocation (S P K : Type) where
  handler : Handler S P K
  state : S
  envelope : Envelope P

namespace Dispatcher

/- Offer a message to handlers: who reacts to it, and how. -/
def choose
    (state : S) :
    List (Handler S P K) →
      Envelope P →
        Except (Envelope P) (Invocation S P K × Reaction S P)
| [], envelope => .error envelope
| handler :: handlers, envelope =>
    match handler.react state envelope with
    | .ok reaction => .ok (⟨handler, state, envelope⟩, reaction)
    | .error envelope => choose state handlers envelope

theorem offer_eq_map_choose
    (state : S)
    (handlers : List (Handler S P K))
    (envelope : Envelope P) :
    offer state handlers envelope =
      (choose state handlers envelope).map Prod.snd := by
  induction handlers generalizing envelope with
  | nil => rfl
  | cons handler handlers ih =>
      unfold offer choose
      cases handler.react state envelope with
      | ok reaction => rfl
      | error back => exact ih back

end Dispatcher

namespace Registry

section Choice

variable [DecidableEq K]
variable [Payload P K]

/- Who reacts to a message, and how. -/
def choose
    (registry : Registry S P K)
    (state : S)
    (envelope : Envelope P) :
    Except (Envelope P) (Invocation S P K × Reaction S P) :=
  Dispatcher.choose state
    (registry.compile.candidates (Payload.kind envelope.payload))
    envelope

/- The invocation that a message leads to, if anybody reacts. -/
def invocation?
    (registry : Registry S P K)
    (state : S)
    (envelope : Envelope P) : Option (Invocation S P K) :=
  match registry.choose state envelope with
  | .ok (invocation, _) => some invocation
  | .error _ => none

theorem dispatch_eq_map_choose
    (registry : Registry S P K)
    (state : S)
    (envelope : Envelope P) :
    registry.dispatch state envelope =
      (registry.choose state envelope).map Prod.snd :=
  Dispatcher.offer_eq_map_choose _ _ _

end Choice

end Registry

------------------------------------------------------------
-- Watching Handlers
------------------------------------------------------------

/- The same handler, which writes its invocations down. -/
def Handler.watched
    (endings : Ending → Ending)
    (handler : Handler S P K) :
    Handler (S × List (Invocation S P K)) P K where
  kind := handler.kind
  typeName := handler.typeName
  react := fun (state, record) envelope =>
    (handler.react state envelope).map
      (Reaction.inGuise endings
        (·, record ++ [⟨handler, state, envelope⟩]))

theorem Dispatcher.offer_watched
    (endings : Ending → Ending)
    (state : S)
    (record : List (Invocation S P K))
    (handlers : List (Handler S P K))
    (envelope : Envelope P) :
    offer (state, record) (handlers.map (.watched endings))
        envelope =
      (choose state handlers envelope).map
        fun (invocation, reaction) =>
          reaction.inGuise endings (·, record ++ [invocation]) := by
  induction handlers generalizing envelope with
  | nil => rfl
  | cons handler handlers ih =>
      rw [List.map_cons]
      unfold offer choose Handler.watched
      dsimp only
      cases handler.react state envelope with
      | ok reaction => rfl
      | error back => exact ih back

namespace Registry

/- The same handlers, all of them watched. -/
def watched
    (endings : Ending → Ending)
    (registry : Registry S P K) :
    Registry (S × List (Invocation S P K)) P K :=
  ⟨registry.component, registry.handlers.map (.watched endings)⟩

theorem ranked_watched
    (endings : Ending → Ending)
    (registry : Registry S P K) :
    (registry.watched endings).ranked =
      registry.ranked.map (.watched endings) := by
  unfold ranked watched
  dsimp only
  rw [List.filter_map, List.filter_map, List.map_append]
  rfl

theorem slots_watched
    (endings : Ending → Ending)
    (registry : Registry S P K) :
    (registry.watched endings).compile.slots =
      registry.compile.slots := by
  unfold compile
  dsimp only
  rw [ranked_watched, List.zipIdx_map, List.foldl_map]
  rfl

section Choice

variable [DecidableEq K]

theorem candidates_watched
    (endings : Ending → Ending)
    (registry : Registry S P K)
    (kind : K) :
    (registry.watched endings).compile.candidates kind =
      (registry.compile.candidates kind).map
        (.watched endings) := by
  have hHandlers :
      (registry.watched endings).compile.handlers =
        registry.compile.handlers.map (.watched endings) :=
    ranked_watched endings registry
  unfold Dispatcher.candidates
  rw [slots_watched, hHandlers, List.map_filterMap]
  simp

/- The same happens to a message, and it is written down. -/
theorem dispatch_watched
    [Payload P K]
    (endings : Ending → Ending)
    (registry : Registry S P K)
    (state : S)
    (record : List (Invocation S P K))
    (envelope : Envelope P) :
    (registry.watched endings).dispatch (state, record) envelope =
      (registry.choose state envelope).map
        fun (invocation, reaction) =>
          reaction.inGuise endings (·, record ++ [invocation]) := by
  unfold dispatch Dispatcher.dispatch
  rw [candidates_watched]
  exact Dispatcher.offer_watched endings state record _ envelope

end Choice

end Registry

------------------------------------------------------------
-- Watching Mailboxes
------------------------------------------------------------

/- How a mailbox looks when its handlers are watched. -/
def Mailbox.watchful
    (endings : Ending → Ending)
    (mailbox : Mailbox S P K) :
    Guise (S × List (Invocation S P K)) P K :=
  ⟨mailbox.registry.watched endings, mailbox.sink, endings⟩

/- The same mailbox with its handlers watched. -/
def Mailbox.watched
    (endings : Ending → Ending)
    (record : List (Invocation S P K))
    (mailbox : Mailbox S P K) :
    Mailbox (S × List (Invocation S P K)) P K :=
  mailbox.inGuise (mailbox.watchful endings) (·, record)

/- The same run of a mailbox that is watched. -/
def MailboxRun.watched
    (endings : Ending → Ending)
    (record : List (Invocation S P K))
    (run : MailboxRun ι S P K) :
    MailboxRun ι (S × List (Invocation S P K)) P K :=
  run.inGuise (run.mailbox.watchful endings) (·, record)

section Watched

variable [DecidableEq K]
variable [Payload P K]

/- A message is taken in the same way, and written down. -/
theorem Mailbox.take_watched
    (endings : Ending → Ending)
    (record : List (Invocation S P K))
    (mailbox : Mailbox S P K)
    (envelope : Envelope P) :
    (mailbox.take envelope).MatchesInGuise
      (mailbox.watchful endings)
      (·, record ++
        (mailbox.registry.invocation? mailbox.state
          envelope).toList)
      ((mailbox.watched endings record).take envelope) := by
  have hWatched :=
    mailbox.registry.dispatch_watched endings mailbox.state record
      envelope
  have hOwn :=
    mailbox.registry.dispatch_eq_map_choose mailbox.state envelope
  unfold Registry.invocation?
  cases hChoose :
      mailbox.registry.choose mailbox.state envelope with
  | ok chosen =>
      rw [hChoose] at hWatched hOwn
      refine take_inGuise ?_ ?_
      · rw [hOwn]
        exact hWatched
      · intro back hBack
        rw [hOwn] at hBack
        cases hBack
  | error other =>
      rw [hChoose] at hWatched hOwn
      refine take_inGuise ?_ ?_
      · rw [hOwn]
        exact hWatched
      · intro back hBack
        rw [Option.toList_none, List.append_nil]
        exact ⟨rfl, rfl⟩

namespace MailboxRun

/- What is invoked when something happens. -/
def invocation?
    (run : MailboxRun ι S P K)
    (act : MailboxAct ι P) : Option (Invocation S P K) :=
  (run.takes? act).bind
    (run.mailbox.registry.invocation? run.mailbox.state)

/-
  The same comes of everything that happens, and whatever is
  invoked is written down.
-/
theorem act_watched
    (endings : Ending → Ending)
    (record : List (Invocation S P K))
    (run : MailboxRun ι S P K)
    (act : MailboxAct ι P) :
    (run.watched endings record).act act =
      (run.act act).watched endings
        (record ++ (run.invocation? act).toList) := by
  have hGuise :
      (run.act act).mailbox.watchful endings =
        run.mailbox.watchful endings := by
    unfold Mailbox.watchful
    rw [(run.keeps_act act).1, (run.keeps_act act).2]
  unfold watched
  rw [hGuise]
  apply act_inGuise
  · intro hIdle
    rw [invocation?, hIdle, Option.bind_none, Option.toList_none,
      List.append_nil]
  · intro envelope hTakes
    rw [invocation?, hTakes, Option.bind_some]
    exact
      Mailbox.take_watched endings record
        { run.mailbox with queue := run.mailbox.queue.tail } envelope

end MailboxRun

end Watched

end OrderDesk
