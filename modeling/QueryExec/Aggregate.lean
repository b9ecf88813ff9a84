import QueryExec.Datum
import QueryExec.Error

/-!
Aggregate functions. An accumulator takes the values of one group, skips NULL, and starts afresh
when its result is taken. A value that is refused leaves the accumulator as it was.
-/

namespace QueryExec

inductive AggregateFunction
  | count
  | sum
  | min
  | max
  | groupConcat
deriving DecidableEq, Repr

namespace AggregateFunction

def name : AggregateFunction → String
  | count => "COUNT"
  | sum => "SUM"
  | min => "MIN"
  | max => "MAX"
  | groupConcat => "GROUP_CONCAT"

def all : List AggregateFunction :=
  [count, sum, min, max, groupConcat]

/-- The function of a name in any mixture of cases. -/
def ofName? (name : String) : Option AggregateFunction :=
  all.find? fun function => function.name = String.ofList (name.toList.map Char.toUpper)

/-- The type of the result over a column. Whole numbers add up to a bigint and floating-point
numbers to a double. -/
def resultType (function : AggregateFunction) (input : ColumnType) :
    Except QueryError ColumnType :=
  match function with
  | count => .ok (.notNull .bigint)
  | sum =>
      match input.kind with
      | .whole _ => .ok ⟨.bigint, true⟩
      | .floating _ => .ok ⟨.double, true⟩
      | other => .error (.configuration (.notSummable other))
  | min => .ok (input.withNullable true)
  | max => .ok (input.withNullable true)
  | groupConcat => .ok ⟨.text, true⟩

end AggregateFunction

/-- A function with its option, such as a separator. -/
structure Aggregate where
  function : AggregateFunction
  option? : Option Datum := none
deriving DecidableEq

/-- The sum of a group so far. -/
inductive RunningSum
  | nothing
  | whole (total : Whole .bigint)
  | floating (total : Floating .binary64)
deriving DecidableEq

inductive Accumulator
  | count (seen : Nat)
  | sum (total : RunningSum)
  /-- Keeps the first value that compares as `keep` to every other. -/
  | extremum (keep : Ordering) (current : Datum)
  | concat (separator : String) (parts : List String)
deriving DecidableEq

namespace Aggregate

def describe (aggregate : Aggregate) : String :=
  match aggregate.option? with
  | some option => aggregate.function.name ++ "(" ++ option.describe ++ ")"
  | none => aggregate.function.name

/-- Only the concatenation takes an option, which must be text. -/
def start (aggregate : Aggregate) : Except QueryError Accumulator :=
  match aggregate.function, aggregate.option? with
  | .groupConcat, none => .ok (.concat "," [])
  | .groupConcat, some (.text separator) => .ok (.concat separator [])
  | .groupConcat, some other => .error (.configuration (.separatorNotText other.describe))
  | function, some option =>
      .error (.configuration (.optionNotTaken function.name option.describe))
  | .count, none => .ok (.count 0)
  | .sum, none => .ok (.sum .nothing)
  | .min, none => .ok (.extremum .lt .null)
  | .max, none => .ok (.extremum .gt .null)

end Aggregate

namespace RunningSum

def addWhole (number : Whole .bigint) : RunningSum → Except ValueError RunningSum
  | nothing => .ok (whole number)
  | whole total =>
      match Whole.ofInt? .bigint (total.value + number.value) with
      | some next => .ok (whole next)
      | none => .error (.overflow .bigint)
  | floating total => .ok (floating (total.add (Floating.ofInt number.value)))

def addFloating (number : Floating .binary64) : RunningSum → RunningSum
  | nothing => floating number
  | whole total => floating ((Floating.ofInt total.value).add number)
  | floating total => floating (total.add number)

/-- Whole numbers are added exactly and must stay within bigint. -/
def input (total : RunningSum) (value : Datum) : Except ValueError RunningSum :=
  match value with
  | .whole _ number =>
      match Whole.ofInt? .bigint number.value with
      | some fitting => total.addWhole fitting
      | none => .error (.overflow .bigint)
  | .floating .real number => .ok (total.addFloating number.convert)
  | .floating .double number => .ok (total.addFloating number)
  | other => .error (.typeMismatch "numeric" other.kindName)

def result : RunningSum → Datum
  | nothing => .null
  | whole total => .whole .bigint total
  | floating total => .double total

end RunningSum

namespace Accumulator

def input (accumulator : Accumulator) (value : Datum) : Except ValueError Accumulator :=
  if value.isNull then .ok accumulator
  else
    match accumulator with
    | count seen => .ok (count (seen + 1))
    | sum total => (total.input value).map sum
    | extremum keep .null => .ok (extremum keep value)
    | extremum keep current =>
        match value.order? current with
        | some ordering => .ok (extremum keep (if ordering = keep then value else current))
        | none => .error (.typeMismatch current.kindName value.kindName)
    | concat separator parts => .ok (concat separator (parts ++ [value.toText]))

def reset : Accumulator → Accumulator
  | count _ => count 0
  | sum _ => sum .nothing
  | extremum keep _ => extremum keep .null
  | concat separator _ => concat separator []

/-- The result over no values at all. -/
def emptyResult : Accumulator → Datum
  | count _ => .whole .bigint (Whole.wrapSigned 0)
  | _ => .null

/-- The result for the values since the last result. -/
def result : Accumulator → Datum
  | count seen => .whole .bigint (Whole.wrapSigned seen)
  | sum total => total.result
  | extremum _ current => current
  | concat _ [] => .null
  | concat separator parts => .text (separator.intercalate parts)

end Accumulator

end QueryExec
