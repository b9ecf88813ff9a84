import QueryExec.BindingSource
import QueryExec.Engine

/-!
The cursor protocol. A cursor is a state of its own beside the engine; the protocol says how each
call changes the pair, what phase a state is in, and how many rows and passes it can still give.
-/

namespace QueryExec

/-- A call on a cursor. -/
abbrev CursorAction (cursor result : Type) : Type := Action (cursor × Engine) result

structure Protocol (cursor : Type) where
  phase : cursor → Phase
  /-- Begins a pass: from closed to opening. -/
  openPass : CursorAction cursor Unit
  /-- The next row, or nothing at the end of the pass; the cursor is then closed. -/
  next : CursorAction cursor (Option Row)
  /-- Abandons a pass. -/
  close : CursorAction cursor Unit
  destroy : CursorAction cursor Unit
  openBindings : CursorAction cursor Unit
  nextBindings : CursorAction cursor (Option Bindings)
  closeBindings : CursorAction cursor Unit
  /-- Abandons the pass, whatever the phase, and discards what is pending under a binding. -/
  cancelBindings : Bindings → cursor × Engine → cursor × Engine
  /-- A bound on the rows that calls of `next` can still give without another opening. -/
  remaining : cursor → Nat
  /-- The bindings that are still pending. -/
  passes : cursor → Nat

namespace CursorAction

variable {cursor result : Type}

def state : CursorAction cursor cursor :=
  return (← get).1

def change (step : cursor → cursor) : CursorAction cursor Unit :=
  modify fun pair => (step pair.1, pair.2)

def inEngine (action : Action Engine result) : CursorAction cursor result :=
  action.onSecond

def inJournal (action : Action Journal result) : CursorAction cursor result :=
  inEngine (Engine.inJournal action)

/-- Runs a call on a cursor that starts in a given state and is dropped afterwards. -/
def runFrom (initial : cursor) (action : CursorAction cursor result) : Action Engine result :=
  ExceptT.mk fun engine =>
    let (outcome, _, after) := action.run (initial, engine)
    (outcome, after)

end CursorAction

/-- Refuses a call that the phase does not allow. -/
def Call.check {state : Type} (call : Call) (phase : Phase) : Action state Unit :=
  if call.legalIn phase then pure () else Action.fail (.lifecycle call phase)

namespace Protocol

variable {cursor result : Type}

/-- Closes the cursor if it is active. -/
def closeActive (protocol : Protocol cursor) : CursorAction cursor Unit := do
  if (protocol.phase (← CursorAction.state)).isActive then protocol.close else pure ()

/-- Destroys the cursor unless it already is. -/
def destroyOnce (protocol : Protocol cursor) : CursorAction cursor Unit := do
  if protocol.phase (← CursorAction.state) = .destroyed then pure () else protocol.destroy

end Protocol

end QueryExec
