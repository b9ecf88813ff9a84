import QueryExec.Cursor.Tree
import QueryExec.Proofs.Row.Meaning

/-!
What plans denote. A plan turns the rows of its leaf into a sequence of rows that the end of the
data or an interruption ends. Each operator is a function of such sequences; nothing is pulled,
held, opened or closed here. Rows are views, so a projected column that is never looked at cannot
fail.
-/

namespace QueryExec

/-- Rows and how they end: by an interruption or, without one, by the end of the data. -/
structure RowStream where
  rows : List View
  ending : Option Interrupt := none

namespace RowStream

def stopped (interrupt : Interrupt) : RowStream :=
  ⟨[], some interrupt⟩

def cons (row : View) (stream : RowStream) : RowStream :=
  { stream with rows := row :: stream.rows }

/-- The rows that are kept, up to the first that cannot be judged. -/
def filterRows (keeps : View → Except Interrupt Bool) (ending : Option Interrupt) :
    List View → RowStream
  | [] => ⟨[], ending⟩
  | row :: rest =>
      match keeps row with
      | .ok true => (filterRows keeps ending rest).cons row
      | .ok false => filterRows keeps ending rest
      | .error interrupt => stopped interrupt

def filtered (keeps : View → Except Interrupt Bool) (stream : RowStream) : RowStream :=
  filterRows keeps stream.ending stream.rows

def mapped (step : View → View) (stream : RowStream) : RowStream :=
  { stream with rows := stream.rows.map step }

/-- The rows after the first `offset`, at most so many; what would come after them is not met. -/
def limited (offset : Nat) (limit? : Option Nat) (stream : RowStream) : RowStream :=
  match limit? with
  | none => { stream with rows := stream.rows.drop offset }
  | some most =>
      if most ≤ (stream.rows.drop offset).length then ⟨(stream.rows.drop offset).take most, none⟩
      else { stream with rows := stream.rows.drop offset }

/-- The values of row after row, or the first failure to read one; then the end. -/
def valuesOf (ending : Option Interrupt) : List View → Except Interrupt (List (List Datum))
  | [] =>
      match ending with
      | none => .ok []
      | some interrupt => .error interrupt
  | row :: rest => do
      let values ← row.values
      let others ← valuesOf ending rest
      .ok (values :: others)

def materialised (stream : RowStream) : Except Interrupt (List (List Datum)) :=
  valuesOf stream.ending stream.rows

theorem materialised_cons (row : View) (stream : RowStream) :
    (stream.cons row).materialised =
      row.values >>= fun values => stream.materialised >>= fun others => .ok (values :: others) :=
  rfl

end RowStream

/-- Whether a filter lets a row pass. Rows of other types it does not judge. -/
def View.passes (view : View) (context : Context) (bindings : Bindings) (inputType : RowType)
    (predicate : Expr) : Except Interrupt Bool :=
  if view.type.same inputType then
    (view.eval context bindings predicate).map Datum.isTrue
  else .ok true

/-- What a projection makes of a row. Rows of other types it leaves as they are. -/
def View.reshaped (view : View) (context : Context) (bindings : Bindings)
    (inputType outputType : RowType) (columns : List Expr) : View :=
  if view.type.same inputType then view.projected outputType context bindings columns else view

/-- A run of rows with equal keys: the key of the first and what the rows add up to. -/
structure Run where
  key : List Datum
  accumulators : List Accumulator

namespace Run

/-- Each accumulator takes one column, from `column` on. -/
def absorb (view : View) (column : Nat) : List Accumulator → Except Interrupt (List Accumulator)
  | [] => .ok []
  | accumulator :: rest => do
      let value ← view.column column
      let next ← (accumulator.input value).mapError fun cause =>
        Interrupt.failed (.value (some column) cause)
      let others ← absorb view (column + 1) rest
      .ok (next :: others)

/-- Whether a row has the key, column by column under the types of the columns. -/
def matchesKey (catalog : Catalog) (view : View) (column : Nat) :
    List Datum → List ColumnType → Except Interrupt Bool
  | current :: key, type :: types => do
      let value ← view.column column
      if catalog.keysEqual type.kind current value then
        matchesKey catalog view (column + 1) key types
      else .ok false
  | _, _ => .ok true

/-- The run that a row begins. -/
def begin (keys : Nat) (fresh : List Accumulator) (view : View) : Except Interrupt Run := do
  let key ← (List.range keys).mapM view.column
  let accumulators ← absorb view keys fresh
  .ok ⟨key, accumulators⟩

def extend (run : Run) (keys : Nat) (view : View) : Except Interrupt Run := do
  let accumulators ← absorb view keys run.accumulators
  .ok { run with accumulators }

/-- The row that a run adds up to. -/
def view (run : Run) (type : RowType) : View :=
  .ofValues type (run.key ++ run.accumulators.map Accumulator.result)

end Run

namespace RowStream

/-- One row for each maximal run, given when the run ends; rows of other types pass at once and
end no run. Without keys all rows are one run, also when there are none. -/
def groupRows (catalog : Catalog) (plan : GroupingPlan) (fresh : List Accumulator)
    (ending : Option Interrupt) : Option Run → List View → RowStream
  | open?, [] =>
      match ending, open? with
      | some interrupt, _ => stopped interrupt
      | none, some run => ⟨[run.view plan.outputType], none⟩
      | none, none =>
          if plan.keys = 0 then
            ⟨[.ofValues plan.outputType (fresh.map Accumulator.emptyResult)], none⟩
          else ⟨[], none⟩
  | open?, row :: rest =>
      if !row.type.same plan.inputType then
        (groupRows catalog plan fresh ending open? rest).cons row
      else
        let begun :=
          match Run.begin plan.keys fresh row with
          | .ok run => groupRows catalog plan fresh ending (some run) rest
          | .error interrupt => stopped interrupt
        match open? with
        | none => begun
        | some run =>
            match Run.matchesKey catalog row 0 run.key plan.inputType.columns with
            | .error interrupt => stopped interrupt
            | .ok false => begun.cons (run.view plan.outputType)
            | .ok true =>
                match run.extend plan.keys row with
                | .ok longer => groupRows catalog plan fresh ending (some longer) rest
                | .error interrupt => stopped interrupt

def grouped (catalog : Catalog) (plan : GroupingPlan) (fresh : List Accumulator)
    (stream : RowStream) : RowStream :=
  groupRows catalog plan fresh stream.ending none stream.rows

end RowStream

namespace Plan

/-- The accumulators of a new aggregation. -/
def accumulators (aggregates : List Aggregate) : List Accumulator :=
  match startAccumulators aggregates with
  | .ok accumulators => accumulators
  | .error _ => []

/-- What the plan makes of the rows of its leaf in a context under a binding. -/
def stream (context : Context) (bindings : Bindings) (leaf : List View) : Plan → RowStream
  | values _ _ _ => ⟨leaf, none⟩
  | table _ _ => ⟨leaf, none⟩
  | filter input predicate =>
      (input.stream context bindings leaf).filtered fun view =>
        view.passes context bindings input.rowType predicate
  | project input type columns =>
      (input.stream context bindings leaf).mapped fun view =>
        view.reshaped context bindings input.rowType type columns
  | aggregate input type keys aggregates =>
      (input.stream context bindings leaf).grouped context.catalog ⟨input.rowType, type, keys⟩
        (accumulators aggregates)
  | limit input offset limit? => (input.stream context bindings leaf).limited offset limit?

/-- Why no cursor can be made for the plan, if none can. -/
def admitted (store : Store) : Plan → Except QueryError Unit
  | values _ _ _ => .ok ()
  | table name type => store.checkScan name type
  | filter input _ => input.admitted store
  | project input _ _ => input.admitted store
  | aggregate input _ _ aggregates => do
      let _ ← startAccumulators aggregates
      input.admitted store
  | limit input _ _ => input.admitted store

/-- The rows that the leaf gives. -/
def leafRows (store : Store) : Plan → Except QueryError (List Row)
  | values _ _ rows => .ok rows
  | table name _ => (store.table name).map StoredTable.rows
  | filter input _ => input.leafRows store
  | project input _ _ => input.leafRows store
  | aggregate input _ _ _ => input.leafRows store
  | limit input _ _ => input.leafRows store

/-- The result of one pass: its rows, read one after another, or the first failure. -/
def passResult (store : Store) (context : Context) (plan : Plan) (bindings : Bindings) :
    Except Interrupt (List (List Datum)) :=
  match plan.leafRows store with
  | .ok rows => (plan.stream context bindings (rows.map Row.view)).materialised
  | .error error => .error (.failed error)

/-- The result of the plan under a binding, unless no cursor can be made for it. -/
def reference (store : Store) (context : Context) (bindings : Bindings) (plan : Plan) :
    Except Interrupt (List (List Datum)) :=
  match plan.admitted store with
  | .ok _ => plan.passResult store context bindings
  | .error error => .error (.failed error)

/-- The results under one binding after another, up to the first failure. -/
def references (store : Store) (context : Context) (bindings : List Bindings) (plan : Plan) :
    Except Interrupt (List (List (List Datum))) :=
  match plan.admitted store with
  | .ok _ => bindings.mapM (plan.passResult store context)
  | .error error => .error (.failed error)

end Plan

end QueryExec
