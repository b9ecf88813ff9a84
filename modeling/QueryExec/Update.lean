import QueryExec.Execution

/-!
Updates of a stored table. An update runs a plan over the table, keeps the rows its selector
accepts and replaces each by a row computed from it, after locking it. Rows replaced before a
failure stay replaced.
-/

namespace QueryExec

structure Update where
  input : Plan
  table : String
  selector? : Option Expr
  /-- One entry for each column; a column without an expression keeps its value. -/
  assignments : List (Option Expr)

structure UpdateCount where
  seen : Nat := 0
  modified : Nat := 0
deriving DecidableEq, Repr

namespace Update

/-- Assigns an expression to a column of a list of assignments. -/
def assign {state : Type} (assignments : List (Option Expr)) (column : Nat) (expression : Expr) :
    Action state (List (Option Expr)) := do
  let _ ← Action.index assignments column
  pure (assignments.set column (some expression))

/-- There is one assignment for each column and the selector is boolean or untyped. -/
def build (input : Plan) (table : String) (selector? : Option Expr)
    (assignments : List (Option Expr)) : Except QueryError Update :=
  if assignments.length ≠ input.rowType.width then
    .error (.configuration (.assignmentArity assignments.length input.rowType.width))
  else
    match selector?.bind Expr.type? with
    | some type =>
        if type.kind = .boolean then .ok ⟨input, table, selector?, assignments⟩
        else .error (.configuration (.selectorNotBoolean type))
    | none => .ok ⟨input, table, selector?, assignments⟩

/-- Whether the selector is true of a row; without one every row is selected. -/
def selects (update : Update) (scope : Scope) : Action Journal Bool :=
  match update.selector? with
  | some selector => return (← selector.eval scope).isTrue
  | none => pure true

/-- The new value of a column; an assigned value of another kind is cast to the kind of the
column. -/
def newValue (context : Context) (scope : Scope) (kind : Kind) (column : Nat) :
    Option Expr → Action Journal Datum
  | none => scope.column column
  | some expression => do
      let value ← (expression.eval scope).atColumn column
      match value.kind? with
      | some actual =>
          if actual = kind then pure value else (context.cast value kind).atColumn column
      | none => pure value

/-- The values of the replacement, column by column from `column` on. -/
def newValues (context : Context) (scope : Scope) (column : Nat) :
    List (Option Expr) → List ColumnType → Action Journal (List Datum)
  | assignment :: assignments, type :: types => do
      let value ← newValue context scope type.kind column assignment
      let rest ← newValues context scope (column + 1) assignments types
      pure (value :: rest)
  | _, _ => pure []

/-- Replaces one row if it is selected, and answers whether it was. -/
def apply (update : Update) (context : Context) (bindings : Bindings) (row : Row) :
    Action Engine Bool := do
  let scope := row.scope context bindings
  if ← Engine.inJournal (update.selects scope) then
    let type := update.input.rowType
    let values ← Engine.inJournal (newValues context scope 0 update.assignments type.columns)
    let replacement ← Engine.newRow type values
    Engine.lockRow
    Engine.updateRow update.table row replacement
    pure true
  else pure false

/-- Updates row after row until the end of the pass; `bound` exceeds the rows to come. -/
def passWithin (update : Update) (context : Context) (bindings : Bindings) :
    (bound : Nat) → CursorAction update.input.Cursor UpdateCount
  | 0 => pure {}
  | bound + 1 => do
      match ← (update.input.protocol context).next with
      | none => pure {}
      | some row => do
          let modified ← CursorAction.inEngine (update.apply context bindings row)
          let rest ← update.passWithin context bindings bound
          pure ⟨rest.seen + 1, rest.modified + if modified then 1 else 0⟩

def pass (update : Update) (context : Context) (bindings : Bindings) :
    CursorAction update.input.Cursor UpdateCount := do
  let protocol := update.input.protocol context
  update.passWithin context bindings (protocol.remaining (← CursorAction.state) + 1)

/-- Runs the update once under a binding. -/
def run (update : Update) (context : Context) (bindings : Bindings) :
    Action Engine UpdateCount := do
  let counts ← update.input.run context (.ofOne bindings) (update.pass context)
  pure (counts.headD {})

def outline (update : Update) : Outline :=
  let assigned := (update.assignments.zipIdx.filterMap fun (assignment, column) =>
    assignment.map fun expression =>
      "#" ++ Text.writeNatural column ++ " = " ++ expression.describe)
  let predicate :=
    match update.selector? with
    | some selector => [(Outline.Label.predicate, selector.describe)]
    | none => []
  .node "Update"
    ([(Outline.Label.table, update.table),
      (Outline.Label.assignments, Outline.listText assigned)] ++ predicate)
    [update.input.outline]

end Update

end QueryExec
