import OrderDesk.Proofs.Engine.Reaction

/-
  This file defines runs of the engine: whatever messages
  come, in any order, and the gate may be shut and opened in
  between. A run keeps all that the engine has sent.

  Key definitions include:
    * `EngineInput`
    * `EngineRun`
    * `EngineRun.take`
    * `EngineRun.process`
    * `firstSubmission?`

  Key theorems include:
    * `EngineRun.exists_step_of_take_message`
    * `EngineRun.process_append`
-/

namespace OrderDesk

/- What reaches an engine: a message, or a switch of its gate. -/
inductive EngineInput where
  | message (stamp : Stamp) (envelope : Envelope TradingMessage)
  | pause (reason : String)
  | resume

/- An engine, and what it has published and sent to the venue. -/
structure EngineRun where
  engine : Engine
  events : List (Envelope TradingMessage)
  commands : List (Envelope TradingMessage)

namespace EngineRun

/- An engine without orders that has not sent anything. -/
def start
    (gate : RiskGate) : EngineRun :=
  ⟨Engine.new gate, [], []⟩

/- Go on with what came of a message. -/
def follow
    (run : EngineRun)
    (step : EngineStep) : EngineRun :=
  ⟨step.engine, run.events ++ step.events,
    run.commands ++ step.commands⟩

/- Take an input. A fault of a handler would change nothing. -/
def take
    (run : EngineRun) :
    EngineInput → EngineRun
| .message stamp envelope =>
    match run.engine.handle stamp envelope with
    | .ok step => run.follow step
    | .error _ => run
| .pause reason => { run with engine := run.engine.pause reason }
| .resume => { run with engine := run.engine.resume }

/- Take inputs one after the other. -/
def process
    (run : EngineRun)
    (inputs : List EngineInput) : EngineRun :=
  inputs.foldl take run

/- A message is followed by one of the engine's reactions to it. -/
theorem exists_step_of_take_message
    (run : EngineRun)
    (stamp : Stamp)
    (envelope : Envelope TradingMessage) :
    ∃ step,
      run.take (.message stamp envelope) = run.follow step ∧
        Engine.Reaction stamp run.engine envelope step := by
  rcases Engine.exists_reaction stamp run.engine envelope with
    ⟨step, hHandle, hReaction⟩
  exact ⟨step, by simp only [take, hHandle], hReaction⟩

/- Inputs that come later are taken by what the run is by then. -/
theorem process_append
    (run : EngineRun)
    (first second : List EngineInput) :
    run.process (first ++ second) =
      (run.process first).process second :=
  List.foldl_append

/-
  What every input preserves holds after all of them. The
  property may speak of the inputs that were taken so far.
-/
theorem process_induction
    (P : List EngineInput → EngineRun → Prop)
    (hTake :
      ∀ seen run input,
        P seen run → P (seen ++ [input]) (run.take input))
    {run : EngineRun}
    (hStart : P [] run)
    (inputs : List EngineInput) :
    P inputs (run.process inputs) := by
  suffices hAll :
      ∀ seen run, P seen run →
        P (seen ++ inputs) (run.process inputs) from
    hAll [] run hStart
  induction inputs with
  | nil =>
      intro seen run hSeen
      simpa [process] using hSeen
  | cons input inputs ih =>
      intro seen run hSeen
      have hNext := ih (seen ++ [input]) (run.take input)
        (hTake seen run input hSeen)
      simpa [process] using hNext

end EngineRun

------------------------------------------------------------
-- Submissions Among Inputs
------------------------------------------------------------

/- The submission in an input, if it asks for the given order. -/
def EngineInput.submission?
    (id : OrderId) :
    EngineInput → Option SubmitOrder
| .message _ envelope => submissionOf? id envelope
| .pause _ => none
| .resume => none

/- The first submission that asks for the given order. -/
def firstSubmission?
    (id : OrderId)
    (inputs : List EngineInput) : Option SubmitOrder :=
  inputs.findSome? (EngineInput.submission? id)

/- A later input matters only if there was no submission before. -/
theorem firstSubmission?_append_singleton
    (id : OrderId)
    (inputs : List EngineInput)
    (input : EngineInput) :
    firstSubmission? id (inputs ++ [input]) =
      (firstSubmission? id inputs).or (input.submission? id) := by
  unfold firstSubmission?
  rw [List.findSome?_append]
  cases hInput : input.submission? id <;> simp [hInput]

end OrderDesk
