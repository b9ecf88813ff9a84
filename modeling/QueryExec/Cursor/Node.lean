import QueryExec.Cursor.Protocol

/-!
What cursors with one input have in common: a phase and a current binding of their own, calls
that are checked against the phase before the input hears of them, and an input that is closed
whenever the cursor stops being active.
-/

namespace QueryExec

/-- The state of a cursor over one input; `own` is what the operator keeps for itself. -/
structure Node (own input : Type) where
  phase : Phase := .closed
  bindings : Bindings := .empty
  own : own
  input : input

namespace Node

variable {own input result : Type}

def onInput (action : CursorAction input result) : CursorAction (Node own input) result :=
  action.onPart (fun pair => (pair.1.input, pair.2))
    fun part pair => ({ pair.1 with input := part.1 }, part.2)

def setPhase (phase : Phase) : CursorAction (Node own input) Unit :=
  CursorAction.change fun node => { node with phase }

def changeOwn (step : own → own) : CursorAction (Node own input) Unit :=
  CursorAction.change fun node => { node with own := step node.own }

def check (call : Call) : CursorAction (Node own input) Unit := do
  call.check (← CursorAction.state).phase

def openPass (inner : Protocol input) : CursorAction (Node own input) Unit := do
  check .openPass
  onInput inner.openPass
  setPhase .opening

/-- The next input row, or nothing once the input is no longer active. -/
def pull (inner : Protocol input) : CursorAction (Node own input) (Option Row) := do
  if (inner.phase (← CursorAction.state).input).isActive then onInput inner.next else pure none

/-- Ends the pass: closes the cursor and then its input, if that is still active. -/
def finish (inner : Protocol input) : CursorAction (Node own input) Unit := do
  setPhase .closed
  onInput inner.closeActive

/-- Closes after a failure; a second failure of the input is dropped. -/
def abort (inner : Protocol input) : CursorAction (Node own input) Unit := do
  let _ ← (onInput inner.closeActive).attempt
  setPhase .closed

def close (inner : Protocol input) : CursorAction (Node own input) Unit := do
  check .close
  finish inner

/-- Closes if needed and destroys the input in any case; the failure to close is reported
first. -/
def destroy (inner : Protocol input) : CursorAction (Node own input) Unit := do
  check .destroy
  let closed ←
    if (← CursorAction.state).phase.isActive then (finish inner).attempt else pure (.ok ())
  let destroyed ← (onInput inner.destroyOnce).attempt
  setPhase .destroyed
  Action.ofExcept closed
  Action.ofExcept destroyed

def openBindings (inner : Protocol input) : CursorAction (Node own input) Unit := do
  check .openBindings
  onInput inner.openBindings

def nextBindings (inner : Protocol input) : CursorAction (Node own input) (Option Bindings) := do
  check .nextBindings
  let bindings? ← onInput inner.nextBindings
  CursorAction.change fun node => { node with bindings := bindings?.getD node.bindings }
  pure bindings?

def closeBindings (inner : Protocol input) : CursorAction (Node own input) Unit := do
  check .closeBindings
  onInput inner.closeBindings

def cancelBindings (inner : Protocol input) (bindings : Bindings)
    (pair : Node own input × Engine) : Node own input × Engine :=
  let (rest, engine) := inner.cancelBindings bindings (pair.1.input, pair.2)
  ({ pair.1 with
      input := rest
      phase := if pair.1.phase = .destroyed then .destroyed else .closed }, engine)

/-- The protocol of an operator from its way of making rows. `advance` runs in an active cursor
and answers the next row or ends the pass; a failure closes the cursor and its input. -/
def protocol (context : Context) (tap : String) (inner : Protocol input)
    (advance : CursorAction (Node own input) (Option Row)) : Protocol (Node own input) where
  phase := Node.phase
  openPass := openPass inner
  next := do
    check .next
    CursorAction.inJournal (context.tap tap)
    match ← Action.onFailure (abort inner) advance with
    | some row => do
        setPhase .running
        pure (some row)
    | none => pure none
  close := close inner
  destroy := destroy inner
  openBindings := openBindings inner
  nextBindings := nextBindings inner
  closeBindings := closeBindings inner
  cancelBindings := cancelBindings inner
  remaining := fun node => inner.remaining node.input
  passes := fun node => inner.passes node.input

/-- Fails in a cancelled context. -/
def checkCancelled (context : Context) : CursorAction (Node own input) Unit :=
  CursorAction.inJournal context.checkCancelled

end Node

end QueryExec
