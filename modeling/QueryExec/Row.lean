import QueryExec.Expr.Evaluate

/-!
Rows and bindings. A stored row has its values; a projected row has expressions over a base row
and computes a column when it is first read, under the context and the binding it was made with.
Bindings give values to parameters and columns to outer rows, and fall back to the binding they
are nested under. Rows, row types and bindings are told apart by identity, not by content.
-/

namespace QueryExec

/-- Row types are told apart by their number alone: two with the same columns are still
different types. -/
structure RowType where
  id : UInt32
  columns : List ColumnType
deriving DecidableEq, Repr

namespace RowType

def same (left right : RowType) : Bool :=
  left.id == right.id

def sameShape (left right : RowType) : Bool :=
  left.columns == right.columns

def width (type : RowType) : Nat :=
  type.columns.length

def describe (type : RowType) : String :=
  "(" ++ ", ".intercalate (type.columns.map ColumnType.describe) ++ ")"

end RowType

mutual

inductive Row
  | stored (id : Nat) (type : RowType) (values : List Datum)
  | projected (id : Nat) (type : RowType) (base : Row) (context : Context) (bindings : Bindings)
      (columns : List Expr)

/-- A binding is a chain: what it binds itself, then the binding it is nested under. -/
inductive Bindings
  | root (id : Nat)
  | nested (id : Nat) (parent : Bindings)
  | parameter (index : Nat) (value : Datum) (rest : Bindings)
  | outer (index : Nat) (row : Row) (rest : Bindings)

end

namespace Row

def id : Row → Nat
  | stored id _ _ => id
  | projected id _ _ _ _ _ => id

def type : Row → RowType
  | stored _ type _ => type
  | projected _ type _ _ _ _ => type

def isStored : Row → Bool
  | stored _ _ _ => true
  | projected _ _ _ _ _ _ => false

/-- Whether both are one row, whatever their values. -/
def same (left right : Row) : Bool :=
  left.id == right.id

end Row

namespace Bindings

/-- The binding of cursors that have not been given one. -/
def empty : Bindings :=
  root 0

def id : Bindings → Nat
  | root id => id
  | nested id _ => id
  | parameter _ _ rest => rest.id
  | outer _ _ rest => rest.id

def same (left right : Bindings) : Bool :=
  left.id == right.id

def parent? : Bindings → Option Bindings
  | root _ => none
  | nested _ parent => some parent
  | parameter _ _ rest => rest.parent?
  | outer _ _ rest => rest.parent?

def depth : Bindings → Nat
  | root _ => 0
  | nested _ parent => parent.depth + 1
  | parameter _ _ rest => rest.depth
  | outer _ _ rest => rest.depth

/-- The value of a parameter here or in an enclosing binding. -/
def parameter? : Bindings → Nat → Option Datum
  | root _, _ => none
  | nested _ parent, index => parent.parameter? index
  | parameter bound value rest, index =>
      if bound = index then some value else rest.parameter? index
  | outer _ _ rest, index => rest.parameter? index

/-- The outer row bound here or in an enclosing binding. -/
def outerRow? : Bindings → Nat → Option Row
  | root _, _ => none
  | nested _ parent, index => parent.outerRow? index
  | parameter _ _ rest, index => rest.outerRow? index
  | outer bound row rest, index => if bound = index then some row else rest.outerRow? index

def withoutParameter (wanted : Nat) : Bindings → Bindings
  | root id => root id
  | nested id parent => nested id parent
  | parameter index value rest =>
      if index = wanted then rest.withoutParameter wanted
      else parameter index value (rest.withoutParameter wanted)
  | outer index row rest => outer index row (rest.withoutParameter wanted)

def withoutOuter (wanted : Nat) : Bindings → Bindings
  | root id => root id
  | nested id parent => nested id parent
  | parameter index value rest => parameter index value (rest.withoutOuter wanted)
  | outer index row rest =>
      if index = wanted then rest.withoutOuter wanted
      else outer index row (rest.withoutOuter wanted)

/-- Binds a parameter, replacing what the same binding had at the index. -/
def bindParameter (bindings : Bindings) (index : Nat) (value : Datum) : Bindings :=
  parameter index value (bindings.withoutParameter index)

/-- Binds an outer row, replacing what the same binding had at the index. -/
def bindOuter (bindings : Bindings) (index : Nat) (row : Row) : Bindings :=
  outer index row (bindings.withoutOuter index)

/-- Whether the other binding is `ancestor` itself or nested under it at any depth. -/
def covers (ancestor : Bindings) : (bindings : Bindings) → Bool
  | root id => ancestor.id == id
  | nested id parent => ancestor.id == id || covers ancestor parent
  | parameter _ _ rest => covers ancestor rest
  | outer _ _ rest => covers ancestor rest

/-- The rows bound at the level of the binding itself. -/
def ownRows : Bindings → List Row
  | root _ => []
  | nested _ _ => []
  | parameter _ _ rest => rest.ownRows
  | outer _ row rest => row :: rest.ownRows

end Bindings

mutual

/-- Reads one column. A column of a projected row that was computed before is remembered; a
failed computation is not. -/
def Row.read : Row → Nat → Action Journal Datum
  | .stored _ _ values, column => Action.index values column
  | .projected id _ base context bindings columns, column => do
      let expression ← Action.index columns column
      match (← get).remembered? id column with
      | some value => pure value
      | none => do
          context.tap "project.evaluate"
          let value ← (expression.eval
            { context
              column := fun index => base.read index
              parameter? := fun index => bindings.parameter? index
              outer? := fun index => bindings.readOuter index }).atColumn column
          modify fun journal => journal.remember id column value
          pure value

/-- The columns of the outer row bound at an index. -/
def Bindings.readOuter : Bindings → Nat → Option (Nat → Action Journal Datum)
  | .root _, _ => none
  | .nested _ parent, index => parent.readOuter index
  | .parameter _ _ rest, index => rest.readOuter index
  | .outer bound row rest, index =>
      if bound = index then some fun column => row.read column else rest.readOuter index

end

namespace Row

/-- The columns of a row in order; the first that fails ends the reading. -/
def readAll (row : Row) : Action Journal (List Datum) :=
  (List.range row.type.width).mapM row.read

/-- The columns of a row in order, each with its value or its failure. -/
def readEach (row : Row) : Action Journal (List (Except QueryError Datum)) :=
  (List.range row.type.width).mapM fun column => (row.read column).attempt

/-- The text of a row, with a question mark for a column that fails. -/
def describe (row : Row) : Action Journal String := do
  let columns ← row.readEach
  let texts := columns.map fun column =>
    match column with
    | .ok value => value.describe
    | .error _ => "?"
  pure ("(" ++ ", ".intercalate texts ++ ")")

/-- What an expression sees of a row under a binding. -/
def scope (row : Row) (context : Context) (bindings : Bindings) : Scope where
  context := context
  column := row.read
  parameter? := bindings.parameter?
  outer? := bindings.readOuter

end Row

end QueryExec
