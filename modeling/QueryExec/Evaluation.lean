import QueryExec.Expr.Blueprint
import QueryExec.Engine

/-!
Evaluation of one expression on its own: a fresh context, an optional row and a chain of nested
bindings with outer rows.
-/

namespace QueryExec

/-- Values with their declared types. -/
structure TypedValues where
  types : List ColumnType
  values : List Datum

/-- One binding of a chain. -/
structure BindingLevel where
  parameters : List (Nat × Datum) := []
  rows : List (Nat × TypedValues) := []

namespace Evaluation

def newRow (source : TypedValues) : Action Engine Row := do
  let type ← Engine.newRowType source.types
  Engine.newRow type source.values

/-- A binding nested under the one before it. -/
def addLevel (outer? : Option Bindings) (level : BindingLevel) :
    Action Engine (Option Bindings) := do
  let id ← Engine.freshId
  let start : Bindings :=
    match outer? with
    | some outer => .nested id outer
    | none => .root id
  let withParameters := level.parameters.foldl (fun before (index, value) =>
    before.bindParameter index value) start
  let bindings ← level.rows.foldlM (fun before (index, source) => do
    pure (before.bindOuter index (← newRow source))) withParameters
  pure (some bindings)

/-- The scope of an expression; the levels go from the outermost binding inwards. -/
def scope (context : Context) (row? : Option TypedValues) (levels : List BindingLevel) :
    Action Engine Scope := do
  let bindings := (← levels.foldlM addLevel none).getD .empty
  match row? with
  | some source => return (← newRow source).scope context bindings
  | none =>
      pure
        { context
          column := Scope.noRow
          parameter? := bindings.parameter?
          outer? := bindings.readOuter }

/-- The outcome of the expression and the warnings it left. -/
def run (catalog : Catalog) (settings : Settings) (expression : Expr) (row? : Option TypedValues)
    (levels : List BindingLevel) : Except Interrupt Datum × List String :=
  let context : Context := { id := 1, catalog, settings }
  let action : Action Engine Datum := do
    let scope ← scope context row? levels
    Engine.inJournal (expression.eval scope)
  let (outcome, engine) := action.run { nextId := 2 : Engine }
  (outcome, (engine.journal.of context).warnings)

end Evaluation

end QueryExec
