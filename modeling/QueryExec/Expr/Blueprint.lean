import QueryExec.Expr.Compose

/-!
Blueprints of expressions: what a planner asks for before the catalog is known. Building one
converts and combines operands where the blueprint says so, operands first and left to right.
-/

namespace QueryExec

inductive Blueprint
  | literal (value : Datum)
  | column (index : Nat) (type : ColumnType)
  | parameter (index : Nat) (type : ColumnType)
  | outer (binding field : Nat) (type : ColumnType)
  | binary (op : BinaryOp) (left right : Blueprint)
  | unary (op : UnaryOp) (operand : Blueprint)
  | cast (operand : Blueprint) (target : ColumnType)
  | nullTest (operand : Blueprint) (negated : Bool)
  /-- A binary operator whose operands are brought to their common type. -/
  | composed (op : BinaryOp) (left right : Blueprint)
  | coerced (operand : Blueprint) (target : ColumnType)

namespace Blueprint

def build (catalog : Catalog) : Blueprint → Except QueryError Expr
  | literal value => .ok (.literal value)
  | column index type => .ok (.column index type)
  | parameter index type => .ok (.parameter index type)
  | outer binding field type => .ok (.outer binding field type)
  | binary op left right => do
      let first ← left.build catalog
      let second ← right.build catalog
      .ok (.binary op first second)
  | unary op operand => return .unary op (← operand.build catalog)
  | cast operand target => return .cast (← operand.build catalog) target
  | nullTest operand negated => return .nullTest (← operand.build catalog) negated
  | composed op left right => do
      let first ← left.build catalog
      let second ← right.build catalog
      Expr.compose catalog op first second
  | coerced operand target => return (← operand.build catalog).coerce catalog target

end Blueprint

end QueryExec
