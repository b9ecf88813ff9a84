import QueryExec.Conversion

/-!
Catalogs of conversions: at most one for each pair of kinds. A catalog converts values, chooses
the common type of two operands and decides when grouping keys are equal.
-/

namespace QueryExec

structure Catalog where
  conversions : List Conversion

namespace Catalog

def empty : Catalog :=
  ⟨[]⟩

def standard : Catalog :=
  ⟨Conversion.allStandard⟩

def find? (catalog : Catalog) (source target : Kind) : Option Conversion :=
  catalog.conversions.find? fun conversion =>
    conversion.source = source && conversion.target = target

/-- Adds a conversion of a pair that has none yet. -/
def add (catalog : Catalog) (conversion : Conversion) : Except QueryError Catalog :=
  if conversion.source = conversion.target then
    .error (.configuration (.identityConversion conversion.source))
  else if (catalog.find? conversion.source conversion.target).isSome then
    .error (.configuration (.duplicateConversion conversion.source conversion.target))
  else .ok ⟨catalog.conversions ++ [conversion]⟩

/-- Fails at the first conversion that maps a kind to itself or repeats a pair. -/
def build (conversions : List Conversion) : Except QueryError Catalog :=
  conversions.foldlM add empty

def size (catalog : Catalog) : Nat :=
  catalog.conversions.length

/-- NULL converts to NULL and a value of the target kind is itself; all else needs an entry. -/
def convert (catalog : Catalog) (value : Datum) (target : Kind) : Except CastError Datum :=
  match value.kind? with
  | none => .ok .null
  | some source =>
      if source = target then .ok value
      else
        match catalog.find? source target with
        | some conversion => conversion.apply value
        | none => .error (.unsupported source target)

/-- The type that an operand has after conversion to a kind, if it can be converted. -/
def targetType? (catalog : Catalog) (operand : Operand) (target : Kind) : Option ColumnType :=
  if operand.type.kind = target then some ⟨target, operand.nullable⟩
  else (catalog.find? operand.type.kind target).map (·.preferred operand)

/-- The type two operands meet in: of two kinds that convert into each other the stronger one.
It is nullable when either operand is. -/
def commonType? (catalog : Catalog) (left right : Operand) : Option ColumnType :=
  let nullable := left.nullable || right.nullable
  if left.type.kind = right.type.kind then some ⟨left.type.kind, nullable⟩
  else
    let chosen :=
      match catalog.targetType? left right.type.kind, catalog.targetType? right left.type.kind with
      | some toRight, some toLeft =>
          if left.type.kind.strength ≤ right.type.kind.strength then some toRight else some toLeft
      | some toRight, none => some toRight
      | none, other => other
    chosen.map (·.withNullable nullable)

/-- Equality of the grouping keys of a column: values of other kinds are converted to the kind
of the column, and a value that does not convert equals nothing. -/
def keysEqual (catalog : Catalog) (kind : Kind) (left right : Datum) : Bool :=
  if left.kind? = right.kind? then left.groupEqual right
  else
    match catalog.convert left kind, catalog.convert right kind with
    | .ok first, .ok second => first.groupEqual second
    | _, _ => false

end Catalog

end QueryExec
