import QueryExec.Kind
import QueryExec.Phase
import QueryExec.Text.Numeral

/-!
Causes of failure and the one place where each is worded.
-/

namespace QueryExec

open Text

/-- Why a value did not convert. -/
inductive CastError
  | outOfRange (value : String) (target : Kind)
  | malformed (text : String) (target : Kind)
  | unsupported (source target : Kind)
deriving DecidableEq, Repr

def CastError.message : CastError → String
  | outOfRange value target => "value " ++ value ++ " out of range for type " ++ target.name
  | malformed text target =>
      "invalid input syntax for type " ++ target.name ++ ": \"" ++ text ++ "\""
  | unsupported source target => "cannot cast " ++ source.name ++ " to " ++ target.name

/-- What is wrong with the data an expression or an aggregate met. -/
inductive ValueError
  | divisionByZero
  | overflow (kind : Kind)
  | typeMismatch (expected found : String)
  | unboundParameter (index : Nat)
  | cast (cause : CastError)
deriving DecidableEq, Repr

def ValueError.message : ValueError → String
  | divisionByZero => "division by zero"
  | overflow kind => kind.title ++ " out of range"
  | typeMismatch expected found => "type mismatch: expected " ++ expected ++ ", found " ++ found
  | unboundParameter index => "no value bound for parameter $" ++ writeNatural index
  | cast cause => cause.message

/-- What is structurally wrong with a plan, a catalog or settings. -/
inductive Misconfiguration
  | identityConversion (kind : Kind)
  | duplicateConversion (source target : Kind)
  | noCommonType (left : ColumnType) (operator : String) (right : ColumnType)
  | columnOutsideRow (index : Nat)
  | predicateNotBoolean (predicate : String) (type : ColumnType)
  | untypedProjection (index : Nat) (expression : String)
  | aggregationArity (keys aggregates columns : Nat)
  | notSummable (kind : Kind)
  | separatorNotText (option : String)
  | optionNotTaken (function option : String)
  | assignmentArity (assigned columns : Nat)
  | selectorNotBoolean (type : ColumnType)
  | unreadableSettings
  | unwritableSettings
  | unknownName (name : String)
  | stated (message : String)
deriving DecidableEq, Repr

def Misconfiguration.message : Misconfiguration → String
  | identityConversion kind => "identity cast registered for " ++ kind.name
  | duplicateConversion source target =>
      "duplicate cast from " ++ source.name ++ " to " ++ target.name
  | noCommonType left operator right =>
      "no common type for " ++ left.describe ++ " " ++ operator ++ " " ++ right.describe
  | columnOutsideRow index => "column #" ++ writeNatural index ++ " referenced outside of a row"
  | predicateNotBoolean predicate type =>
      "filter predicate " ++ predicate ++ " has type " ++ type.describe ++ ", expected boolean"
  | untypedProjection index expression =>
      "projection " ++ writeNatural index ++ " (" ++ expression ++
        ") has no type; cast it to a column type"
  | aggregationArity keys aggregates columns =>
      "inputs_index(=" ++ writeNatural keys ++ ") + aggregators(=" ++ writeNatural aggregates ++
        ") != input row type columns(=" ++ writeNatural columns ++ ")"
  | notSummable kind => "SUM cannot aggregate " ++ kind.name
  | separatorNotText option => "GROUP_CONCAT separator must be text, got " ++ option
  | optionNotTaken function option => function ++ " takes no option, got " ++ option
  | assignmentArity assigned columns =>
      "update assigns " ++ writeNatural assigned ++ " columns, input has " ++ writeNatural columns
  | selectorNotBoolean type =>
      "update selector has type " ++ type.describe ++ ", expected boolean"
  | unreadableSettings => "settings cannot be read"
  | unwritableSettings => "settings cannot be written"
  | unknownName name => "nothing is named " ++ name
  | stated message => message

/-- Why the store refused. -/
inductive StorageFault
  | tableExists (table : String)
  | noSuchTable (table : String)
  | scanTypeMismatch (table actual declared : String)
  | shapeMismatch (row table : String)
  | notStored (row table : String)
  | injected (call : String)
  | stated (message : String)
deriving DecidableEq, Repr

def StorageFault.message : StorageFault → String
  | tableExists table => "table " ++ table ++ " already exists"
  | noSuchTable table => "no such table: " ++ table
  | scanTypeMismatch table actual declared =>
      "table " ++ table ++ " has row type " ++ actual ++ ", scan declares " ++ declared
  | shapeMismatch row table =>
      "row type " ++ row ++ " does not match table row type " ++ table
  | notStored row table => "row " ++ row ++ " is not stored in " ++ table
  | injected call => "injected " ++ call ++ " failure"
  | stated message => message

inductive QueryError
  | lifecycle (call : Call) (phase : Phase)
  | configuration (cause : Misconfiguration)
  | cast (cause : CastError)
  | value (column : Option Nat) (cause : ValueError)
  | cancelled
  | storage (cause : StorageFault)
deriving DecidableEq, Repr

namespace QueryError

/-- Scopes a failure about a value to an output column; other failures are about no value. -/
def atColumn (index : Nat) : QueryError → QueryError
  | value _ cause => value (some index) cause
  | cast cause => value (some index) (.cast cause)
  | other => other

def isLifecycle : QueryError → Bool
  | lifecycle _ _ => true
  | _ => false

def isCancelled : QueryError → Bool
  | cancelled => true
  | _ => false

def message : QueryError → String
  | lifecycle call phase =>
      "cannot " ++ call.describe ++ " a cursor in state " ++ phase.name
  | configuration cause => "invalid configuration: " ++ cause.message
  | cast cause => cause.message
  | value none cause => cause.message
  | value (some index) cause => "column " ++ writeNatural index ++ ": " ++ cause.message
  | cancelled => "query cancelled"
  | storage cause => "storage error: " ++ cause.message

end QueryError

end QueryExec
