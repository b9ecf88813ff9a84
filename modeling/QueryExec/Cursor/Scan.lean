import QueryExec.Cursor.Protocol

/-!
Leaf cursors. A scan takes a snapshot of its rows when it opens and hands them out in order; it
also owns the source of bindings of its whole tree.
-/

namespace QueryExec

/-- The state of a leaf. -/
structure Scan where
  phase : Phase := .closed
  source : BindingSource
  current : Bindings := .empty
  pending : List Row := []

namespace Scan

def check (call : Call) : CursorAction Scan Unit := do
  call.check (← CursorAction.state).phase

def openPass (context : Context) (load : Action Engine (List Row)) : CursorAction Scan Unit := do
  check .openPass
  CursorAction.inJournal (context.tap "scan.open")
  let rows ← CursorAction.inEngine load
  CursorAction.change fun scan => { scan with pending := rows, phase := .opening }

/-- Drops the pending rows and closes. -/
def abandon (scan : Scan) : Scan :=
  { scan with pending := [], phase := .closed }

def next (context : Context) : CursorAction Scan (Option Row) := do
  check .next
  Action.onFailure (CursorAction.change abandon) (CursorAction.inJournal context.checkCancelled)
  CursorAction.inJournal (context.tap "scan.next")
  match (← CursorAction.state).pending with
  | row :: rest => do
      CursorAction.change fun scan => { scan with pending := rest, phase := .running }
      pure (some row)
  | [] => do
      CursorAction.change fun scan => { scan with phase := .closed }
      pure none

def close : CursorAction Scan Unit := do
  check .close
  CursorAction.change abandon

def destroy : CursorAction Scan Unit := do
  check .destroy
  CursorAction.change fun scan => { scan with pending := [], phase := .destroyed }

def openBindings : CursorAction Scan Unit := do
  check .openBindings
  CursorAction.change fun scan => { scan with source := scan.source.openAll }

def nextBindings : CursorAction Scan (Option Bindings) := do
  check .nextBindings
  let (bindings?, source) := (← CursorAction.state).source.next
  CursorAction.change fun scan =>
    { scan with source, current := bindings?.getD scan.current }
  pure bindings?

def closeBindings : CursorAction Scan Unit := do
  check .closeBindings
  CursorAction.change fun scan => { scan with source := scan.source.close }

def cancelBindings (bindings : Bindings) (scan : Scan) : Scan :=
  { scan with
    source := scan.source.cancel bindings
    pending := []
    phase := if scan.phase = .destroyed then .destroyed else .closed }

/-- A leaf over rows that `load` takes at each opening. -/
def protocol (context : Context) (load : Action Engine (List Row)) : Protocol Scan where
  phase := Scan.phase
  openPass := openPass context load
  next := next context
  close := close
  destroy := destroy
  openBindings := openBindings
  nextBindings := nextBindings
  closeBindings := closeBindings
  cancelBindings := fun bindings pair => (pair.1.cancelBindings bindings, pair.2)
  remaining := fun scan => scan.pending.length
  passes := fun scan => scan.source.pending.length

/-- A fault that comes instead of the call. -/
def insteadOf {result : Type} (call : LeafCall) (action : CursorAction Scan result) :
    CursorAction Scan result := do
  CursorAction.inEngine (Engine.note call)
  CursorAction.inEngine (Engine.injectFault call)
  action

/-- A fault that comes after the call, whose own failure has priority. -/
def after (call : LeafCall) (action : CursorAction Scan Unit) : CursorAction Scan Unit := do
  CursorAction.inEngine (Engine.note call)
  action
  CursorAction.inEngine (Engine.injectFault call)

/-- A leaf whose calls the probe sees. -/
def probed (inner : Protocol Scan) : Protocol Scan where
  phase := inner.phase
  openPass := insteadOf .openPass inner.openPass
  next := insteadOf .next inner.next
  close := after .close inner.close
  destroy := after .destroy inner.destroy
  openBindings := insteadOf .openBindings inner.openBindings
  nextBindings := insteadOf .nextBindings inner.nextBindings
  closeBindings := insteadOf .closeBindings inner.closeBindings
  cancelBindings := fun bindings pair =>
    let (scan, engine) := inner.cancelBindings bindings pair
    (scan, { engine with probe? := engine.probe?.map (·.note .cancelBindings) })
  remaining := inner.remaining
  passes := inner.passes

/-- The rows of a stored table at the moment of loading. -/
def loadTable (name : String) : Action Engine (List Row) :=
  return (← Engine.storedTable name).rows

end Scan

end QueryExec
