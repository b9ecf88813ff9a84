import QueryExec.Floating.Format
import QueryExec.Whole

/-!
Kinds of values and declared column types. A kind is what conversions are registered between; a
column type adds whether NULL is allowed.
-/

namespace QueryExec

/-- The two floating-point kinds. -/
inductive Precision
  | real
  | double
deriving DecidableEq, Repr

def Precision.format : Precision → Floating.Format
  | real => .binary32
  | double => .binary64

inductive Kind
  | boolean
  | whole (width : Width)
  | floating (precision : Precision)
  | text
  | bytes
deriving DecidableEq, Repr

namespace Kind

abbrev smallint : Kind := .whole .smallint

abbrev integer : Kind := .whole .integer

abbrev bigint : Kind := .whole .bigint

abbrev ubigint : Kind := .whole .ubigint

abbrev real : Kind := .floating .real

abbrev double : Kind := .floating .double

def all : List Kind :=
  [boolean, smallint, integer, bigint, ubigint, real, double, text, bytes]

theorem mem_all (kind : Kind) : kind ∈ all := by
  rcases kind with _ | width | precision | _ | _
  · decide
  · cases width <;> decide
  · cases precision <;> decide
  · decide
  · decide

def isWhole : Kind → Bool
  | whole _ => true
  | _ => false

def isFloating : Kind → Bool
  | floating _ => true
  | _ => false

def isNumeric (kind : Kind) : Bool :=
  kind.isWhole || kind.isFloating

/-- Of two kinds that convert into each other the stronger one is the common kind. Text is
weaker than every number, so a number compared with text is compared as a number. -/
def strength : Kind → Nat
  | bytes => 0
  | text => 1
  | boolean => 2
  | whole .smallint => 3
  | whole .integer => 4
  | whole .bigint => 5
  | whole .ubigint => 6
  | floating .real => 7
  | floating .double => 8

def name : Kind → String
  | boolean => "boolean"
  | whole .smallint => "smallint"
  | whole .integer => "integer"
  | whole .bigint => "bigint"
  | whole .ubigint => "bigint unsigned"
  | floating .real => "real"
  | floating .double => "double precision"
  | text => "text"
  | bytes => "bytea"

/-- The name in capitals that range errors use. -/
def title : Kind → String
  | boolean => "BOOLEAN"
  | whole .smallint => "SMALLINT"
  | whole .integer => "INTEGER"
  | whole .bigint => "BIGINT"
  | whole .ubigint => "BIGINT UNSIGNED"
  | floating .real => "REAL"
  | floating .double => "DOUBLE PRECISION"
  | text => "TEXT"
  | bytes => "BYTEA"

end Kind

structure ColumnType where
  kind : Kind
  nullable : Bool := true
deriving DecidableEq, Repr

namespace ColumnType

def notNull (kind : Kind) : ColumnType :=
  ⟨kind, false⟩

def withNullable (type : ColumnType) (nullable : Bool) : ColumnType :=
  { type with nullable := nullable }

def describe (type : ColumnType) : String :=
  if type.nullable then type.kind.name else type.kind.name ++ " NOT NULL"

end ColumnType

end QueryExec
