import QueryExec.Expr.Apply
import QueryExec.Journal

/-!
Evaluation of expressions. Operands are evaluated left to right and the first failure ends the
evaluation; conversions obey the cast error mode of the context.
-/

namespace QueryExec

/-- What an expression can read. Reading a column of a lazily computed row may itself warn,
count or fail, so columns are read by steps. -/
structure Scope where
  context : Context
  column : Nat → Action Journal Datum
  parameter? : Nat → Option Datum
  /-- The columns of an outer row, if one is bound at the index. -/
  outer? : Nat → Option (Nat → Action Journal Datum)

/-- Reads columns where there is no row. -/
def Scope.noRow (index : Nat) : Action Journal Datum :=
  Action.fail (.configuration (.columnOutsideRow index))

namespace Context

/-- The 64-bit pattern of a whole number or of what converts to one; what does not convert
counts as zero unless such errors are fatal. -/
def patternOfInteger (context : Context) (value : Datum) : Action Journal (Whole .ubigint) :=
  match context.catalog.convert value .bigint with
  | .ok (.whole .bigint number) => pure (Whole.wrapUnsigned number.value)
  | .ok _ => pure (Whole.wrapUnsigned 0)
  | .error cause => do
      context.recover cause
      pure (Whole.wrapUnsigned 0)

/-- Floating-point numbers are rounded to a whole number first. -/
def bitPattern (context : Context) : Datum → Action Journal (Whole .ubigint)
  | .whole .ubigint number => pure number
  | .floating .real number =>
      context.patternOfInteger (.double (number.convert : Floating .binary64).round)
  | .floating .double number => context.patternOfInteger (.double number.round)
  | other => context.patternOfInteger other

def applyUnary (context : Context) (op : UnaryOp) (value : Datum) : Action Journal Datum :=
  match op with
  | .neg => Action.ofValue value.negate
  | .not => Action.ofValue value.invert
  | .complement =>
      if value.isNull then pure .null
      else return .whole .ubigint (← context.bitPattern value).complement
  | .popCount =>
      if value.isNull then pure .null
      else return .whole .bigint (← context.bitPattern value).popCount

end Context

namespace Expr

def eval (scope : Scope) : Expr → Action Journal Datum
  | literal value => pure value
  | column index _ => scope.column index
  | parameter index _ =>
      Action.ofOption (.value none (.unboundParameter index)) (scope.parameter? index)
  | outer binding field _ =>
      match scope.outer? binding with
      | some read => read field
      | none => Action.fail (.value none (.unboundParameter binding))
  | binary op left right => do
      let first ← left.eval scope
      let second ← right.eval scope
      Action.ofValue (op.apply first second)
  | unary op operand => do
      let value ← operand.eval scope
      scope.context.applyUnary op value
  | cast operand target => do
      let value ← operand.eval scope
      scope.context.cast value target.kind
  | nullTest operand negated => do
      let value ← operand.eval scope
      pure (.boolean (value.isNull != negated))

end Expr

end QueryExec
