import QueryExec.Catalog
import QueryExec.Expr.Apply

/-!
Building expressions: operands of different kinds are brought to their common type, and literals
are converted and combined before execution where that cannot fail.
-/

namespace QueryExec

namespace Expr

/-- What is known of an expression of a given type as an operand. -/
def operand (expression : Expr) (type : ColumnType) : Operand :=
  match expression with
  | literal value => ⟨type, some value⟩
  | _ => ⟨type, none⟩

/-- The literal converted in place, if its conversion is foldable and succeeds. -/
def folded? (catalog : Catalog) (expression : Expr) (source target : Kind) : Option Expr :=
  match expression, catalog.find? source target with
  | literal value, some conversion =>
      if conversion.foldable then
        match catalog.convert value target with
        | .ok converted => some (literal converted)
        | .error _ => none
      else none
  | _, _ => none

/-- The expression converted to a type of another kind. Untyped expressions stay as they are. -/
def coerce (catalog : Catalog) (target : ColumnType) (expression : Expr) : Expr :=
  match expression.type? with
  | none => expression
  | some type =>
      if type.kind = target.kind then expression
      else (expression.folded? catalog type.kind target.kind).getD (cast expression target)

/-- Both operands in their common type, where they have types of different kinds. -/
def coerceBoth (catalog : Catalog) (op : BinaryOp) (left right : Expr) :
    Except QueryError (Expr × Expr) :=
  match left.type?, right.type? with
  | some first, some second =>
      if op.isConnective || first.kind == second.kind then .ok (left, right)
      else
        match catalog.commonType? (left.operand first) (right.operand second) with
        | some common => .ok (left.coerce catalog common, right.coerce catalog common)
        | none => .error (.configuration (.noCommonType first op.symbol second))
  | _, _ => .ok (left, right)

/-- Two literals are combined at once. An operation that would fail is kept, so that its error
is raised for each row. -/
def combine (op : BinaryOp) : Expr → Expr → Expr
  | literal left, literal right =>
      match op.apply left right with
      | .ok value => literal value
      | .error _ => binary op (literal left) (literal right)
  | left, right => binary op left right

def compose (catalog : Catalog) (op : BinaryOp) (left right : Expr) : Except QueryError Expr := do
  let (first, second) ← coerceBoth catalog op left right
  .ok (combine op first second)

end Expr

end QueryExec
