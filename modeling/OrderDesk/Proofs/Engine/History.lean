import OrderDesk.Proofs.Engine.Run

/-
  This file proves that what the engine publishes about an
  order is the history of that order: whoever listens knows
  as much as the engine does.

  Key definitions include:
    * `EngineRun.TellsHistory`

  Key theorems include:
    * `EngineRun.TellsHistory.take`
    * `EngineRun.published_events_tell_history`
-/

namespace OrderDesk

namespace EngineRun

/-
  What was published about an order after some inputs. If
  the engine holds no order under `id`, nobody asked for one
  and nothing was said about it. If it holds one, the order
  is filed under its own identifier, the events published
  about it are its history, and they lead from the first
  submission to that very order.
-/
def TellsHistory
    (id : OrderId)
    (inputs : List EngineInput)
    (run : EngineRun) : Prop :=
  match run.engine.blotter.find? id with
  | none =>
      firstSubmission? id inputs = none ∧
        eventsAbout id run.events = []
  | some order =>
      order.id = id ∧
        eventsAbout id run.events = order.history ∧
          ∃ command,
            firstSubmission? id inputs = some command ∧
              (Order.new command).replay
                  (eventsAbout id run.events) =
                .ok order

/- An input that says nothing about an order keeps its story. -/
theorem TellsHistory.keep
    {id : OrderId}
    {inputs : List EngineInput}
    {input : EngineInput}
    {run next : EngineRun}
    (hTold : run.TellsHistory id inputs)
    (hFound :
      next.engine.blotter.find? id = run.engine.blotter.find? id)
    (hEvents :
      eventsAbout id next.events = eventsAbout id run.events)
    (hKnown :
      run.engine.blotter.find? id = none →
        input.submission? id = none) :
    next.TellsHistory id (inputs ++ [input]) := by
  unfold TellsHistory at hTold ⊢
  rw [hFound, hEvents, firstSubmission?_append_singleton]
  cases hOrder : run.engine.blotter.find? id with
  | none =>
      rw [hOrder] at hTold
      exact ⟨by rw [hTold.1, hKnown hOrder]; rfl, hTold.2⟩
  | some order =>
      rw [hOrder] at hTold
      rcases hTold with ⟨hId, hHistory, command, hFirst, hReplay⟩
      exact
        ⟨hId, hHistory, command, by rw [hFirst]; rfl, hReplay⟩

/- Every message keeps the story of every order up to date. -/
theorem TellsHistory.follow
    {id : OrderId}
    {inputs : List EngineInput}
    {run : EngineRun}
    {stamp : Stamp}
    {envelope : Envelope TradingMessage}
    {step : EngineStep}
    (hTold : run.TellsHistory id inputs)
    (hChange :
      Engine.OrderChange run.engine envelope id step) :
    (run.follow step).TellsHistory id
      (inputs ++ [.message stamp envelope]) := by
  cases hChange with
  | kept hFound hEvents _ hKnown _ =>
      refine hTold.keep hFound ?_ ?_
      · simp [EngineRun.follow, hEvents]
      · intro hNone
        cases hAsked : submissionOf? id envelope with
        | none => exact hAsked
        | some command =>
            exact absurd hNone (hKnown (by simp [hAsked]))
  | opened command occurrence order hCommand hId hNew hApply
      hFound hEvents _ =>
      unfold TellsHistory at hTold ⊢
      rw [hNew] at hTold
      have hTold' : eventsAbout id (run.follow step).events =
          [⟨id, occurrence⟩] := by
        simp [EngineRun.follow, hTold.2, hEvents]
      have hHistory := Order.history_of_apply hApply
      have hTerms := Order.terms_of_apply hApply
      simp only [show (run.follow step).engine = step.engine from rfl,
        hFound, hTold']
      refine ⟨hTerms.1.trans hId, ?_, command, ?_, ?_⟩
      · rw [hHistory]
        rfl
      · rw [firstSubmission?_append_singleton, hTold.1]
        exact hCommand
      · have hReplay :=
          Order.replay_append_of_apply (Order.replay_nil _) hApply
        exact hReplay
  | advanced event order next hEvent hOrder hApply hFound
      hEvents _ =>
      unfold TellsHistory at hTold ⊢
      rw [hOrder] at hTold
      rcases hTold with ⟨hOwn, hHistory, command, hFirst, hReplay⟩
      have hTold' : eventsAbout id (run.follow step).events =
          eventsAbout id run.events ++ [event] := by
        simp [EngineRun.follow, hEvents]
      have hTerms := Order.terms_of_apply hApply
      simp only [show (run.follow step).engine = step.engine from rfl,
        hFound, hTold']
      refine ⟨hTerms.1.trans hOwn, ?_, command, ?_, ?_⟩
      · rw [hHistory, Order.history_of_apply hApply]
      · rw [firstSubmission?_append_singleton, hFirst]
        rfl
      · exact Order.replay_append_of_apply hReplay hApply

/- Every input keeps the story of every order up to date. -/
theorem TellsHistory.take
    {id : OrderId}
    {inputs : List EngineInput}
    {run : EngineRun}
    (hTold : run.TellsHistory id inputs)
    (input : EngineInput) :
    (run.take input).TellsHistory id (inputs ++ [input]) := by
  cases input with
  | message stamp envelope =>
      rcases run.exists_step_of_take_message stamp envelope with
        ⟨step, hStep, hReaction⟩
      rw [hStep]
      exact hTold.follow (hReaction.orderChange id)
  | pause reason => exact hTold.keep rfl rfl fun _ => rfl
  | resume => exact hTold.keep rfl rfl fun _ => rfl

/-
  The event stream is the history of the orders: whatever an
  engine takes in from its empty state, what it has published
  about an order is what the order went through, and replayed
  on the first submission it gives the order as it is.
-/
theorem published_events_tell_history
    (gate : RiskGate)
    (inputs : List EngineInput)
    (id : OrderId) :
    ((start gate).process inputs).TellsHistory id inputs := by
  apply process_induction (TellsHistory id)
  · intro seen run input hTold
    exact hTold.take input
  · exact ⟨rfl, rfl⟩

end EngineRun

end OrderDesk
