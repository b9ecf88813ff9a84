import QueryExec.Cursor.Node

/-!
The projection cursor: it wraps each row of its input type in a projected row under the current
binding, computing nothing, and lets rows of other types through.
-/

namespace QueryExec.Project

variable {input : Type}

abbrev State (input : Type) : Type := Node Unit input

def advance (context : Context) (inputType outputType : RowType) (columns : List Expr)
    (inner : Protocol input) : CursorAction (State input) (Option Row) := do
  Node.checkCancelled context
  match ← Node.pull inner with
  | none => do
      Node.finish inner
      pure none
  | some row =>
      if !row.type.same inputType then pure (some row)
      else
        let bindings := (← CursorAction.state).bindings
        return some (← CursorAction.inEngine
          (Engine.newProjection outputType row context bindings columns))

def protocol (context : Context) (inputType outputType : RowType) (columns : List Expr)
    (inner : Protocol input) : Protocol (State input) :=
  Node.protocol context "project.next" inner (advance context inputType outputType columns inner)

end QueryExec.Project
