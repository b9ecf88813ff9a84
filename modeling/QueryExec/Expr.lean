import QueryExec.Datum

/-!
Scalar expressions: their operators, static types and text. Only arithmetic has a kind that
depends on its operands; comparisons, connectives and NULL tests are boolean.
-/

namespace QueryExec

open Text

inductive Arithmetic
  | add
  | sub
  | mul
  | div
  | mod
deriving DecidableEq, Repr

inductive Comparison
  | eq
  | ne
  | lt
  | le
  | gt
  | ge
deriving DecidableEq, Repr

inductive Connective
  | and
  | or
deriving DecidableEq, Repr

inductive BinaryOp
  | arithmetic (op : Arithmetic)
  | comparison (op : Comparison)
  | connective (op : Connective)
deriving DecidableEq, Repr

namespace BinaryOp

def isConnective : BinaryOp → Bool
  | connective _ => true
  | _ => false

def symbol : BinaryOp → String
  | arithmetic .add => "+"
  | arithmetic .sub => "-"
  | arithmetic .mul => "*"
  | arithmetic .div => "/"
  | arithmetic .mod => "%"
  | comparison .eq => "="
  | comparison .ne => "<>"
  | comparison .lt => "<"
  | comparison .le => "<="
  | comparison .gt => ">"
  | comparison .ge => ">="
  | connective .and => "AND"
  | connective .or => "OR"

end BinaryOp

inductive UnaryOp
  | neg
  | not
  /-- The complement of the 64-bit pattern. -/
  | complement
  /-- The number of ones in the 64-bit pattern. -/
  | popCount
deriving DecidableEq, Repr

inductive Expr
  | literal (value : Datum)
  /-- A column of the row at hand. -/
  | column (index : Nat) (type : ColumnType)
  /-- A parameter of the active binding. -/
  | parameter (index : Nat) (type : ColumnType)
  /-- A column of an outer row of the active binding. -/
  | outer (binding field : Nat) (type : ColumnType)
  | binary (op : BinaryOp) (left right : Expr)
  | unary (op : UnaryOp) (operand : Expr)
  | cast (operand : Expr) (target : ColumnType)
  | nullTest (operand : Expr) (negated : Bool)
deriving DecidableEq

/-- Of two widths the stronger one. -/
def Width.stronger (left right : Width) : Width :=
  if (Kind.whole right).strength ≤ (Kind.whole left).strength then left else right

/-- The kind of an arithmetic result: exact among whole numbers, double precision in a mixture,
and none outside the numbers. -/
def Kind.arithmetic? : Kind → Kind → Option Kind
  | .whole left, .whole right => some (.whole (left.stronger right))
  | .floating left, .floating right => some (.floating (if left = right then left else .double))
  | .whole _, .floating _ => some .double
  | .floating _, .whole _ => some .double
  | _, _ => none

namespace Expr

def nullableType (type? : Option ColumnType) : Bool :=
  match type? with
  | some type => type.nullable
  | none => true

/-- The static type; an untyped NULL has none. -/
def type? : Expr → Option ColumnType
  | literal value => value.kind?.map ColumnType.notNull
  | column _ type => some type
  | parameter _ type => some type
  | outer _ _ type => some type
  | binary (.arithmetic _) left right =>
      let nullable := nullableType left.type? || nullableType right.type?
      match left.type?, right.type? with
      | some first, some second => (first.kind.arithmetic? second.kind).map (⟨·, nullable⟩)
      | some only, none => some ⟨only.kind, nullable⟩
      | none, some only => some ⟨only.kind, nullable⟩
      | none, none => none
  | binary _ left right =>
      some ⟨.boolean, nullableType left.type? || nullableType right.type?⟩
  | unary .neg operand => operand.type?
  | unary .not operand => some ⟨.boolean, nullableType operand.type?⟩
  | unary .complement operand => some ⟨.ubigint, nullableType operand.type?⟩
  | unary .popCount operand => some ⟨.bigint, nullableType operand.type?⟩
  | cast _ target => some target
  | nullTest _ _ => some (.notNull .boolean)

/-- Whether the expression mentions no column, parameter or outer field. -/
def isConstant : Expr → Bool
  | literal _ => true
  | column _ _ => false
  | parameter _ _ => false
  | outer _ _ _ => false
  | binary _ left right => left.isConstant && right.isConstant
  | unary _ operand => operand.isConstant
  | cast operand _ => operand.isConstant
  | nullTest operand _ => operand.isConstant

def describe : Expr → String
  | literal value => value.describe
  | column index _ => "#" ++ writeNatural index
  | parameter index _ => "$" ++ writeNatural index
  | outer binding field _ => "outer[" ++ writeNatural binding ++ "].#" ++ writeNatural field
  | binary op left right =>
      "(" ++ left.describe ++ " " ++ op.symbol ++ " " ++ right.describe ++ ")"
  | unary .neg operand => "-" ++ operand.describe
  | unary .not operand => "NOT " ++ operand.describe
  | unary .complement operand => "~" ++ operand.describe
  | unary .popCount operand => "BIT_COUNT(" ++ operand.describe ++ ")"
  | cast operand target => "CAST(" ++ operand.describe ++ " AS " ++ target.kind.name ++ ")"
  | nullTest operand true => operand.describe ++ " IS NOT NULL"
  | nullTest operand false => operand.describe ++ " IS NULL"

end Expr

end QueryExec
