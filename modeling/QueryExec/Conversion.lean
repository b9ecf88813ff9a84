import QueryExec.Datum
import QueryExec.Error
import QueryExec.Text.Blank

/-!
Conversions between kinds. The standard conversions are exact or fail: a number that does not
fit is out of range, and text that is no numeral is malformed.
-/

namespace QueryExec

open Text

/-- What is known of an operand before execution: its declared type and, of a literal, its
value. -/
structure Operand where
  type : ColumnType
  literal? : Option Datum := none

/-- A literal is nullable exactly when it is NULL. -/
def Operand.nullable (operand : Operand) : Bool :=
  match operand.literal? with
  | some value => value.isNull
  | none => operand.type.nullable

/-- A registered way from one kind to another. A foldable one may be applied to literals before
execution. The preferred type of an operand is the one that it is taken to have once converted,
which decides the common type of two operands. -/
structure Conversion where
  source : Kind
  target : Kind
  foldable : Bool := true
  preferred : Operand → ColumnType := fun operand => ⟨target, operand.nullable⟩
  apply : Datum → Except CastError Datum

namespace Conversion

/-- The pairs that have a standard conversion. Only text converts to and from byte strings, and
truth values convert to and from whole numbers and text. -/
def isStandard (source target : Kind) : Bool :=
  source != target &&
    match source, target with
    | _, .text => true
    | .text, _ => true
    | .boolean, other => other.isWhole
    | other, .boolean => other.isWhole
    | first, second => first.isNumeric && second.isNumeric

def unsupported (value : Datum) (target : Kind) : CastError :=
  .unsupported (value.kind?.getD target) target

def outOfRange (value : Datum) (target : Kind) : CastError :=
  .outOfRange value.toText target

/-- The spellings of TRUE and FALSE, compared without regard to case and outer blanks. -/
def truthOfText (text : String) : Option Bool :=
  let word := String.ofList ((trim text.toList).map Char.toLower)
  if word ∈ ["true", "t", "yes", "y", "1", "on"] then some true
  else if word ∈ ["false", "f", "no", "n", "0", "off"] then some false
  else none

/-- The least 128-bit integer. -/
def leastNumeral : Int :=
  -170141183460469231731687303715884105728

def greatestNumeral : Int :=
  170141183460469231731687303715884105727

/-- Numerals are read as 128-bit integers; what lies beyond is no numeral. -/
def integerOfText (text : String) : Option Int :=
  match readInteger (trim text.toList) with
  | some number =>
      if leastNumeral ≤ number ∧ number ≤ greatestNumeral then some number else none
  | none => none

def toBoolean (value : Datum) : Except CastError Datum :=
  match value with
  | .text text =>
      match truthOfText text with
      | some truth => .ok (.boolean truth)
      | none => .error (.malformed text .boolean)
  | .whole _ number => .ok (.boolean (number.value != 0))
  | other => .error (unsupported other .boolean)

/-- The number in the target width, or the failure naming the converted value. -/
def fit (value : Datum) (width : Width) (number : Int) : Except CastError Datum :=
  match Datum.ofWhole? width number with
  | some fitting => .ok fitting
  | none => .error (outOfRange value (.whole width))

def toWhole (width : Width) (value : Datum) : Except CastError Datum :=
  match value with
  | .boolean truth => fit value width (if truth then 1 else 0)
  | .text text =>
      match integerOfText text with
      | some number => fit value width number
      | none => .error (.malformed text (.whole width))
  | .floating _ number =>
      match number.truncate? with
      | some whole => fit value width whole
      | none => .error (outOfRange value (.whole width))
  | .whole _ number => fit value width number.value
  | other => .error (unsupported other (.whole width))

/-- The value in double precision, from which both floating-point kinds are made. -/
def doubleOf (value : Datum) (target : Kind) : Except CastError (Floating .binary64) :=
  match value with
  | .text text =>
      match Floating.read (trim text.toList) with
      | some number => .ok number
      | none => .error (.malformed text target)
  | other =>
      match other.double? with
      | some number => .ok number
      | none => .error (unsupported other target)

/-- Narrowing must not turn a finite number into an infinite one. -/
def toFloating (precision : Precision) (value : Datum) : Except CastError Datum := do
  let number ← doubleOf value (.floating precision)
  match precision with
  | .double => .ok (.double number)
  | .real =>
      let narrowed : Floating .binary32 := number.convert
      if number.isFinite && narrowed.isInfinite then .error (outOfRange value .real)
      else .ok (.real narrowed)

def toBytes (value : Datum) : Except CastError Datum :=
  match value with
  | .text text => .ok (.bytes text.toUTF8.toList)
  | other => .error (unsupported other .bytes)

/-- NULL converts to NULL, and a value of the target kind is itself. -/
def convert (target : Kind) (value : Datum) : Except CastError Datum :=
  if value.isNull then .ok .null
  else if value.kind? = some target then .ok value
  else
    match target with
    | .text => .ok (.text value.toText)
    | .boolean => toBoolean value
    | .whole width => toWhole width value
    | .floating precision => toFloating precision value
    | .bytes => toBytes value

/-- The standard conversion of a pair, if there is one. -/
def standard? (source target : Kind) : Option Conversion :=
  if isStandard source target then
    some { source, target, apply := convert target }
  else none

/-- A conversion with one answer for every value. -/
def fixed (source target : Kind) (foldable : Bool) (answer : Datum) : Conversion :=
  { source, target, foldable, apply := fun _ => .ok answer }

/-- A conversion that does what the standard one of its pair does, if there is one. -/
def likeStandard (source target : Kind) (foldable : Bool) : Conversion :=
  { source, target, foldable
    apply := fun value =>
      if isStandard source target then convert target value
      else .error (.unsupported source target) }

/-- Every standard conversion. -/
def allStandard : List Conversion :=
  Kind.all.flatMap fun source => Kind.all.filterMap fun target => standard? source target

end Conversion

end QueryExec
