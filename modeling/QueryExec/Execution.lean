import QueryExec.Cursor.Tree

/-!
Running plans to the end: one pass for each binding, every row read as it comes. The cursor is
destroyed on every way out, and the failure of the run itself is reported before a failure to
destroy.
-/

namespace QueryExec

namespace Protocol

variable {cursor result : Type}

/-- Reads rows until the end of the pass; `bound` exceeds the rows that can still come. -/
def drainWithin (protocol : Protocol cursor) :
    (bound : Nat) → CursorAction cursor (List (List Datum))
  | 0 => pure []
  | bound + 1 => do
      match ← protocol.next with
      | none => pure []
      | some row => do
          let values ← CursorAction.inJournal row.readAll
          let rest ← protocol.drainWithin bound
          pure (values :: rest)

/-- The values of every remaining row of an open cursor. -/
def drain (protocol : Protocol cursor) : CursorAction cursor (List (List Datum)) := do
  protocol.drainWithin (protocol.remaining (← CursorAction.state) + 1)

/-- One pass for each pending binding; `bound` exceeds their number. -/
def passesWithin (protocol : Protocol cursor) (pass : Bindings → CursorAction cursor result) :
    (bound : Nat) → CursorAction cursor (List result)
  | 0 => pure []
  | bound + 1 => do
      match ← protocol.nextBindings with
      | none => pure []
      | some bindings => do
          protocol.openPass
          let first ← pass bindings
          let rest ← protocol.passesWithin pass bound
          pure (first :: rest)

/-- Opens the bindings, runs one pass for each and closes them. -/
def runPasses (protocol : Protocol cursor) (pass : Bindings → CursorAction cursor result) :
    CursorAction cursor (List result) := do
  protocol.openBindings
  let results ← protocol.passesWithin pass (protocol.passes (← CursorAction.state) + 1)
  protocol.closeBindings
  pure results

/-- Destroys the cursor after a run, whether it failed or not. -/
def thenDestroy (protocol : Protocol cursor) (run : CursorAction cursor result) :
    CursorAction cursor result := do
  let ran ← run.attempt
  let destroyed ← protocol.destroy.attempt
  let value ← Action.ofExcept ran
  Action.ofExcept destroyed
  pure value

end Protocol

namespace Plan

/-- Runs one pass of a new cursor for each binding of a source. -/
def run {result : Type} (plan : Plan) (context : Context) (source : BindingSource)
    (pass : Bindings → CursorAction plan.Cursor result) : Action Engine (List result) := do
  let cursor ← Action.ofExcept (plan.start (← get).store source)
  let protocol := plan.protocol context
  CursorAction.runFrom cursor (protocol.thenDestroy (protocol.runPasses pass))

/-- The rows of every pass, in the order of the bindings. -/
def executeEach (plan : Plan) (context : Context) (bindings : List Bindings) :
    Action Engine (List (List (List Datum))) :=
  plan.run context (.ofList bindings) fun _ => (plan.protocol context).drain

/-- The rows under one binding. -/
def execute (plan : Plan) (context : Context) (bindings : Bindings) :
    Action Engine (List (List Datum)) := do
  let passes ← plan.run context (.ofOne bindings) fun _ => (plan.protocol context).drain
  pure (passes.headD [])

end Plan

end QueryExec
