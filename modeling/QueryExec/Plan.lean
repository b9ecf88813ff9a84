import QueryExec.Aggregate
import QueryExec.Outline
import QueryExec.Engine

/-!
Plans: trees of operators over one leaf, with the checks that are made when a plan is built, the
row type of what it emits and its description.
-/

namespace QueryExec

open Text

/-- The rows of a `values` leaf need not be of its declared type. `slice` tells one list of rows
from another. -/
inductive Plan
  | values (slice : Nat) (type : RowType) (rows : List Row)
  | table (name : String) (type : RowType)
  | filter (input : Plan) (predicate : Expr)
  | project (input : Plan) (type : RowType) (columns : List Expr)
  | aggregate (input : Plan) (type : RowType) (keys : Nat) (aggregates : List Aggregate)
  | limit (input : Plan) (offset : Nat) (limit? : Option Nat)

namespace Plan

def rowType : Plan → RowType
  | values _ type _ => type
  | table _ type => type
  | filter input _ => input.rowType
  | project _ type _ => type
  | aggregate _ type _ _ => type
  | limit input _ _ => input.rowType

def inputs : Plan → List Plan
  | values _ _ _ => []
  | table _ _ => []
  | filter input _ => [input]
  | project input _ _ => [input]
  | aggregate input _ _ _ => [input]
  | limit input _ _ => [input]

/-- A predicate must be boolean or untyped. -/
def filtered (input : Plan) (predicate : Expr) : Except QueryError Plan :=
  match predicate.type? with
  | some type =>
      if type.kind = .boolean then .ok (filter input predicate)
      else .error (.configuration (.predicateNotBoolean predicate.describe type))
  | none => .ok (filter input predicate)

/-- The types of projected columns; `index` is the index of the first. -/
def projectionTypes (index : Nat) : List Expr → Except QueryError (List ColumnType)
  | [] => .ok []
  | column :: rest =>
      match column.type? with
      | some type => do
          let types ← projectionTypes (index + 1) rest
          .ok (type :: types)
      | none => .error (.configuration (.untypedProjection index column.describe))

/-- Every projected column must have a type. -/
def projected (input : Plan) (columns : List Expr) : Action Engine Plan := do
  let types ← Action.ofExcept (projectionTypes 0 columns)
  return project input (← Engine.newRowType types) columns

/-- The types of aggregates over the columns they read. -/
def aggregateTypes : List Aggregate → List ColumnType → Except QueryError (List ColumnType)
  | first :: aggregates, column :: columns => do
      let _ ← first.start
      let type ← first.function.resultType column
      let types ← aggregateTypes aggregates columns
      .ok (type :: types)
  | _, _ => .ok []

/-- The first `keys` columns are grouping keys and each other column feeds one aggregate. -/
def groupedTypes (columns : List ColumnType) (keys : Nat) (aggregates : List Aggregate) :
    Except QueryError (List ColumnType) :=
  if keys + aggregates.length = columns.length then do
    let types ← aggregateTypes aggregates (columns.drop keys)
    .ok (columns.take keys ++ types)
  else
    .error (.configuration (.aggregationArity keys aggregates.length columns.length))

def aggregated (input : Plan) (keys : Nat) (aggregates : List Aggregate) : Action Engine Plan := do
  let types ← Action.ofExcept (groupedTypes input.rowType.columns keys aggregates)
  return aggregate input (← Engine.newRowType types) keys aggregates

def aggregateNames (aggregates : List Aggregate) : String :=
  Outline.listText (aggregates.map fun member => member.function.name)

def describeAggregation (keys : Nat) (aggregates : List Aggregate) : String :=
  match keys with
  | 0 => "Aggregation(without GROUP BY: " ++ aggregateNames aggregates ++ ")"
  | 1 => "Aggregation(GROUP BY 1 field, then: " ++ aggregateNames aggregates ++ ")"
  | _ =>
      "Aggregation(GROUP BY " ++ writeNatural keys ++ " fields, then: " ++
        aggregateNames aggregates ++ ")"

/-- One line about the topmost operator. -/
def describe : Plan → String
  | values _ _ rows => "ValuesScan(" ++ writeNatural rows.length ++ " rows)"
  | table name _ => "StoreScan(" ++ name ++ ")"
  | filter _ predicate => "Filter(" ++ predicate.describe ++ ")"
  | project _ type _ => "Project" ++ type.describe
  | aggregate _ _ keys aggregates => describeAggregation keys aggregates
  | limit _ offset none => "Limit(offset " ++ writeNatural offset ++ ")"
  | limit _ offset (some most) =>
      "Limit(" ++ writeNatural most ++ " offset " ++ writeNatural offset ++ ")"

def outline : Plan → Outline
  | values _ type rows =>
      .node "ValuesScan"
        [(.outputType, type.describe), (.rowCount, writeNatural rows.length)] []
  | table name type => .node "StoreScan" [(.table, name), (.outputType, type.describe)] []
  | filter input predicate => .node "Filter" [(.predicate, predicate.describe)] [input.outline]
  | project input type columns =>
      .node "Project"
        [(.projections, Outline.listText (columns.map Expr.describe)),
          (.outputType, type.describe)] [input.outline]
  | aggregate input type keys aggregates =>
      .node (describeAggregation keys aggregates)
        [(.aggregators, Outline.listText (aggregates.map Aggregate.describe)),
          (.groupingOption, writeNatural keys),
          (.inputType, input.rowType.describe),
          (.outputType, type.describe)] [input.outline]
  | limit input offset none => .node "Limit" [(.offset, writeNatural offset)] [input.outline]
  | limit input offset (some most) =>
      .node "Limit" [(.offset, writeNatural offset), (.limit, writeNatural most)] [input.outline]

end Plan

end QueryExec
