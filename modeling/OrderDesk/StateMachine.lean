import OrderDesk.Validation

/-
  This file defines machines that are driven by a table of
  transitions.

  Key definitions include:
    * `Transition`
    * `TransitionTable.next?`
    * `InvalidTransition`
    * `StateMachine`
    * `StateMachine.process`
-/

namespace OrderDesk

------------------------------------------------------------
-- Transition Tables
------------------------------------------------------------

/- One legal move: `trigger` leads from `state` to `next`. -/
structure Transition (S T : Type) where
  state : S
  trigger : T
  next : S
deriving DecidableEq

/- A table of legal moves. -/
abbrev TransitionTable (S T : Type) :=
  List (Transition S T)

namespace TransitionTable

variable {S T : Type} [DecidableEq S] [DecidableEq T]

/-
  Where `trigger` leads from `state`. Of several rows for
  the same move the last one holds.
-/
def next?
    (table : TransitionTable S T)
    (state : S)
    (trigger : T) : Option S :=
  (table.reverse.find? fun row =>
    row.state = state ∧ row.trigger = trigger).map (·.next)

end TransitionTable

/- The move that a machine refused. -/
structure InvalidTransition (S T : Type) where
  state : S
  trigger : T
deriving DecidableEq

namespace InvalidTransition

variable {S T : Type}

/- The refusal as text, given the names of states and triggers. -/
def message
    (stateName : S → String)
    (triggerName : T → String)
    (e : InvalidTransition S T) : String :=
  "invalid transition: " ++ triggerName e.trigger ++ " from " ++
    stateName e.state

end InvalidTransition

------------------------------------------------------------
-- Machines
------------------------------------------------------------

/- A machine: its table, which is not empty, and its state. -/
structure StateMachine (S T : Type) where
  table : TransitionTable S T
  state : S
  table_ne_nil : table ≠ []

namespace StateMachine

variable {S T : Type} [DecidableEq S] [DecidableEq T]

/- A machine in its starting state. -/
def start
    (table : TransitionTable S T)
    (state : S) :
    Except ValidationError (StateMachine S T) :=
  if h : table = [] then
    .error .emptyTransitionTable
  else
    .ok ⟨table, state, h⟩

/- The machine has a move for `trigger`. -/
def canProcess
    (m : StateMachine S T)
    (trigger : T) : Bool :=
  (m.table.next? m.state trigger).isSome

/- Make the move for `trigger`, or say which move was refused. -/
def process
    (m : StateMachine S T)
    (trigger : T) :
    Except (InvalidTransition S T) (StateMachine S T) :=
  match m.table.next? m.state trigger with
  | some next => .ok { m with state := next }
  | none => .error ⟨m.state, trigger⟩

end StateMachine

end OrderDesk
