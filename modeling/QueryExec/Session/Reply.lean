import QueryExec.Probe
import QueryExec.Row
import QueryExec.Update

/-!
Replies of a session, one for each command.
-/

namespace QueryExec.Session

/-- The columns of a row, each with its value or its failure. -/
abbrev Columns : Type := List (Except QueryError Datum)

/-- What is particular to the topmost operator of a plan. -/
inductive PlanDetail
  | rowCount (count : Nat)
  | table (name : String)
  | predicate (expression : Expr)
  | projections (columns : List Expr)
  | aggregation (keys : Nat) (aggregates : List String)
  | nothing

def PlanDetail.of : Plan → PlanDetail
  | .values _ _ rows => rowCount rows.length
  | .table name _ => table name
  | .filter _ expression => predicate expression
  | .project _ _ columns => projections columns
  | .aggregate _ _ keys aggregates => aggregation keys (aggregates.map Aggregate.describe)
  | .limit _ _ _ => nothing

/-- A delivered binding with the name it is known by, if it has one. -/
structure Delivered where
  name? : Option String

inductive CursorResult
  | done
  | failed (error : QueryError)
  | atEnd
  /-- `declared` tells whether the row has the row type of the plan. -/
  | row (declared : Bool) (type : String) (columns? : Option Columns)
  | binding (delivered? : Option Delivered)
  | rows (rows : List (List Datum))

inductive Reply
  | done
  | truth (value : Bool)
  | number (value : Nat)
  | text (value : String)
  | value (value : Datum)
  | texts (values : List String)
  | truths (values : List Bool)
  | cancellation (cancelled : Bool) (check : Except QueryError Unit)
  | tapCounts (counts : List (String × Nat))
  | calls (log? : Option (List LeafCall))
  | rowType (text : String) (columns : Nat)
  | typeComparison (same sameShape : Bool)
  | holders (count : Nat)
  | rowContents (type : String) (columns : Columns)
  | slotContents (columns? : Option Columns)
  | tableContents (type : String) (rows : List Columns)
  | planFacts (text rowType : String) (inputs : Nat) (outline : String) (detail : PlanDetail)
  | rows (rows : List (List Datum))
  | passes (passes : List (List (List Datum)))
  | update (table outline : String) (counts : Except QueryError UpdateCount)
  | lookup (depth : Nat) (hasParent : Bool) (value? : Option Datum) (row? : Option Columns)
  | source (delivered? : Option (Option Delivered)) (remaining? : Option Nat)
  | cursor (result : CursorResult) (phase : Phase)

end QueryExec.Session
