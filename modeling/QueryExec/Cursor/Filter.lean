import QueryExec.Cursor.Node

/-!
The filter cursor: it keeps the rows of its input type whose predicate is true and lets rows of
other types through.
-/

namespace QueryExec.Filter

variable {input : Type}

abbrev State (input : Type) : Type := Node Unit input

/-- Whether the predicate is true of a row under the current binding. -/
def accepts (context : Context) (predicate : Expr) (row : Row) :
    CursorAction (State input) Bool := do
  let bindings := (← CursorAction.state).bindings
  let value ← CursorAction.inJournal (predicate.eval (row.scope context bindings))
  pure value.isTrue

/-- Pulls rows until one passes; `bound` exceeds the rows the input can still give. -/
def search (context : Context) (inputType : RowType) (predicate : Expr) (inner : Protocol input) :
    (bound : Nat) → CursorAction (State input) (Option Row)
  | 0 => pure none
  | bound + 1 => do
      match ← Node.pull inner with
      | none => do
          Node.finish inner
          pure none
      | some row =>
          if !row.type.same inputType then pure (some row)
          else if ← accepts context predicate row then pure (some row)
          else search context inputType predicate inner bound

def advance (context : Context) (inputType : RowType) (predicate : Expr) (inner : Protocol input) :
    CursorAction (State input) (Option Row) := do
  Node.checkCancelled context
  let bound := inner.remaining (← CursorAction.state).input + 1
  search context inputType predicate inner bound

def protocol (context : Context) (inputType : RowType) (predicate : Expr)
    (inner : Protocol input) : Protocol (State input) :=
  Node.protocol context "filter.next" inner (advance context inputType predicate inner)

end QueryExec.Filter
