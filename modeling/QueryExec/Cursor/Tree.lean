import QueryExec.Cursor.Filter
import QueryExec.Cursor.Grouping
import QueryExec.Cursor.Limit
import QueryExec.Cursor.Project
import QueryExec.Cursor.Scan
import QueryExec.Plan

/-!
The cursor tree of a plan: its state has one node for each operator of the plan, and its
protocol is put together from the protocols of the operators.
-/

namespace QueryExec.Plan

/-- The state of a cursor over a plan. -/
def Cursor : Plan → Type
  | values _ _ _ => Scan
  | table _ _ => Scan
  | filter input _ => Filter.State input.Cursor
  | project input _ _ => Project.State input.Cursor
  | aggregate input _ _ _ => Grouping.State input.Cursor
  | limit input _ _ => Limit.State input.Cursor

/-- How a cursor over a plan runs in a context. -/
def protocol (context : Context) : (plan : Plan) → Protocol plan.Cursor
  | values _ _ rows => Scan.protocol context (pure rows)
  | table name _ => Scan.probed (Scan.protocol context (Scan.loadTable name))
  | filter input predicate =>
      Filter.protocol context input.rowType predicate (protocol context input)
  | project input type columns =>
      Project.protocol context input.rowType type columns (protocol context input)
  | aggregate input type keys _ =>
      Grouping.protocol context ⟨input.rowType, type, keys⟩ (protocol context input)
  | limit input offset limit? =>
      Limit.protocol context offset limit? (protocol context input)

def startAccumulators (aggregates : List Aggregate) : Except QueryError (List Accumulator) :=
  aggregates.mapM Aggregate.start

/-- A closed cursor over a plan. The row type that a table leaf declares must be that of the
table. -/
def start (store : Store) (source : BindingSource) : (plan : Plan) → Except QueryError plan.Cursor
  | values _ _ _ => .ok { source : Scan }
  | table name type =>
      match store.checkScan name type with
      | .ok _ => .ok { source : Scan }
      | .error error => .error error
  | filter input _ =>
      match start store source input with
      | .ok rest => .ok { own := (), input := rest : Filter.State input.Cursor }
      | .error error => .error error
  | project input _ _ =>
      match start store source input with
      | .ok rest => .ok { own := (), input := rest : Project.State input.Cursor }
      | .error error => .error error
  | aggregate input _ _ aggregates =>
      match startAccumulators aggregates, start store source input with
      | .ok accumulators, .ok rest =>
          .ok { own := { accumulators }, input := rest : Grouping.State input.Cursor }
      | .error error, _ => .error error
      | _, .error error => .error error
  | limit input _ _ =>
      match start store source input with
      | .ok rest => .ok { own := {}, input := rest : Limit.State input.Cursor }
      | .error error => .error error

end QueryExec.Plan
