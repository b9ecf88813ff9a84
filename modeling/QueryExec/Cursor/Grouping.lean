import QueryExec.Aggregate
import QueryExec.Cursor.Node

/-!
The aggregation cursor: it groups contiguous runs of rows with equal keys. The phase tells how
far the pass is: opening means that no group is open, running that `key` is the key of the open
group, closing that the last row was given. The row that ends a group is held for the next one.
Rows of other types pass through at once.
-/

namespace QueryExec

/-- What an aggregation reads and gives. -/
structure GroupingPlan where
  inputType : RowType
  outputType : RowType
  keys : Nat

structure GroupingState where
  key : List Datum := []
  accumulators : List Accumulator
  lookahead? : Option Row := none
  sawInput : Bool := false

namespace Grouping

variable {input : Type}

abbrev State (input : Type) : Type := Node GroupingState input

/-- Feeds the columns of a row from `column` on to the accumulators, one each. What was absorbed
before a failure stays absorbed. -/
def absorbFrom (row : Row) (column : Nat) :
    List Accumulator → Journal → Except Interrupt Unit × List Accumulator × Journal
  | [], journal => (.ok (), [], journal)
  | accumulator :: rest, journal =>
      match (row.read column).run journal with
      | (.error interrupt, journal) => (.error interrupt, accumulator :: rest, journal)
      | (.ok value, journal) =>
          match accumulator.input value with
          | .error cause =>
              (.error (.failed (.value (some column) cause)), accumulator :: rest, journal)
          | .ok next =>
              let (outcome, others, journal) := absorbFrom row (column + 1) rest journal
              (outcome, next :: others, journal)

def absorb (keys : Nat) (row : Row) : CursorAction (State input) Unit :=
  ExceptT.mk fun (node, engine) =>
    let (outcome, accumulators, journal) :=
      absorbFrom row keys node.own.accumulators engine.journal
    (outcome, { node with own := { node.own with accumulators } }, { engine with journal })

/-- Whether the key columns of a row equal the open key, column by column. -/
def sameKey (catalog : Catalog) (row : Row) (column : Nat) :
    List Datum → List ColumnType → Action Journal Bool
  | current :: key, type :: types => do
      let value ← row.read column
      if catalog.keysEqual type.kind current value then sameKey catalog row (column + 1) key types
      else pure false
  | _, _ => pure true

def startGroup (plan : GroupingPlan) (row : Row) : CursorAction (State input) Unit := do
  Node.changeOwn fun state => { state with key := [] }
  let key ← CursorAction.inJournal ((List.range plan.keys).mapM row.read)
  Node.changeOwn fun state =>
    { state with key, accumulators := state.accumulators.map Accumulator.reset }
  absorb plan.keys row

/-- The row of the open group; the accumulators start afresh. -/
def emitGroup (plan : GroupingPlan) : CursorAction (State input) Row := do
  let state := (← CursorAction.state).own
  let values := state.key ++ state.accumulators.map Accumulator.result
  Node.changeOwn fun state =>
    { state with key := [], accumulators := state.accumulators.map Accumulator.reset }
  CursorAction.inEngine (Engine.newRow plan.outputType values)

/-- After the last input row: the row of the open group; over no input and without keys, the row
of empty results; else the end of the pass. -/
def endOfInput (plan : GroupingPlan) (inner : Protocol input) :
    CursorAction (State input) (Option Row) := do
  let state := (← CursorAction.state).own
  if state.sawInput then
    Node.setPhase .closing
    return some (← emitGroup plan)
  else if plan.keys = 0 then
    Node.setPhase .closing
    return some (← CursorAction.inEngine
      (Engine.newRow plan.outputType (state.accumulators.map Accumulator.emptyResult)))
  else
    Node.finish inner
    pure none

/-- The held row, which is no longer held then, or the next input row. -/
def takeRow (inner : Protocol input) : CursorAction (State input) (Option Row) := do
  match (← CursorAction.state).own.lookahead? with
  | some row => do
      Node.changeOwn fun state => { state with lookahead? := none }
      pure (some row)
  | none => Node.pull inner

/-- Takes rows until one can be given; `bound` exceeds the rows that are held or can still come. -/
def collect (context : Context) (plan : GroupingPlan) (inner : Protocol input) :
    (bound : Nat) → CursorAction (State input) (Option Row)
  | 0 => pure none
  | bound + 1 => do
      match ← takeRow inner with
      | none => endOfInput plan inner
      | some row =>
          if !row.type.same plan.inputType then pure (some row)
          else do
            Node.changeOwn fun state => { state with sawInput := true }
            if (← CursorAction.state).phase = .running then
              let key := (← CursorAction.state).own.key
              if ← CursorAction.inJournal
                  (sameKey context.catalog row 0 key plan.inputType.columns) then
                absorb plan.keys row
                collect context plan inner bound
              else
                Node.changeOwn fun state => { state with lookahead? := some row }
                let output ← emitGroup plan
                Node.setPhase .opening
                pure (some output)
            else
              startGroup plan row
              Node.setPhase .running
              collect context plan inner bound

/-- The rows that are held or can still be pulled. -/
def supply (inner : Protocol input) (node : State input) : Nat :=
  inner.remaining node.input + if node.own.lookahead?.isSome then 1 else 0

def advance (context : Context) (plan : GroupingPlan) (inner : Protocol input) :
    CursorAction (State input) (Option Row) := do
  Node.checkCancelled context
  let node ← CursorAction.state
  if node.phase = .closing then
    Node.finish inner
    pure none
  else collect context plan inner (supply inner node + 1)

/-- Forgets the held row and the open group. -/
def forget : CursorAction (State input) Unit :=
  Node.changeOwn fun state => { state with lookahead? := none, key := [] }

def openPass (context : Context) (inner : Protocol input) : CursorAction (State input) Unit := do
  CursorAction.inJournal (context.tap "aggregate.open")
  Node.openPass inner
  Node.changeOwn fun state =>
    { state with
      key := []
      sawInput := false
      accumulators := state.accumulators.map Accumulator.reset }

def next (context : Context) (plan : GroupingPlan) (inner : Protocol input) :
    CursorAction (State input) (Option Row) := do
  Node.check .next
  CursorAction.inJournal (context.tap "aggregate.next")
  Action.onFailure (do forget; Node.abort inner) (advance context plan inner)

/-- The held row is released only when the input closed without a failure. -/
def close (inner : Protocol input) : CursorAction (State input) Unit := do
  Node.close inner
  forget

def destroy (inner : Protocol input) : CursorAction (State input) Unit := do
  Node.changeOwn fun state => { state with lookahead? := none }
  Node.destroy inner

def cancelBindings (inner : Protocol input) (bindings : Bindings)
    (pair : State input × Engine) : State input × Engine :=
  Node.cancelBindings inner bindings
    ({ pair.1 with own := { pair.1.own with lookahead? := none, key := [] } }, pair.2)

/-- Between calls an open group and the row over no input count as one more row to come. -/
def remaining (inner : Protocol input) (node : State input) : Nat :=
  supply inner node + (if node.phase = .running then 1 else 0) +
    if node.phase = .closing then 0 else 1

def protocol (context : Context) (plan : GroupingPlan) (inner : Protocol input) :
    Protocol (State input) where
  phase := Node.phase
  openPass := openPass context inner
  next := next context plan inner
  close := close inner
  destroy := destroy inner
  openBindings := Node.openBindings inner
  nextBindings := Node.nextBindings inner
  closeBindings := Node.closeBindings inner
  cancelBindings := cancelBindings inner
  remaining := remaining inner
  passes := fun node => inner.passes node.input

end Grouping

end QueryExec
