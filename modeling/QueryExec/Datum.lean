import QueryExec.Floating.Text
import QueryExec.Kind
import QueryExec.Text.Hex

/-!
Column values: what they are, how two of them compare, and their text.
-/

namespace QueryExec

open Text

inductive Datum
  | null
  | boolean (value : Bool)
  | whole (width : Width) (value : Whole width)
  | floating (precision : Precision) (value : Floating precision.format)
  | text (value : String)
  | bytes (value : List UInt8)
deriving DecidableEq

namespace Datum

instance : Inhabited Datum := ⟨null⟩

abbrev real (value : Floating .binary32) : Datum := .floating .real value

abbrev double (value : Floating .binary64) : Datum := .floating .double value

/-- The kind of a value; NULL has none. -/
def kind? : Datum → Option Kind
  | null => none
  | boolean _ => some .boolean
  | whole width _ => some (.whole width)
  | floating precision _ => some (.floating precision)
  | text _ => some .text
  | bytes _ => some .bytes

def isNull : Datum → Bool
  | null => true
  | _ => false

theorem kind_none_iff {value : Datum} : value.kind? = none ↔ value = .null := by
  cases value <;> simp [kind?]

theorem is_null_iff {value : Datum} : value.isNull = true ↔ value = .null := by
  cases value <;> simp [isNull]

theorem not_null_of_kind {value : Datum} {kind : Kind} (ofKind : value.kind? = some kind) :
    value.isNull = false := by
  cases value <;> first | rfl | cases ofKind

/-- NULL and FALSE are both not true. -/
def isTrue : Datum → Bool
  | boolean value => value
  | _ => false

/-- The value of a whole number of any width. -/
def whole? : Datum → Option Int
  | whole _ value => some value.value
  | _ => none

/-- The value of any number in double precision. -/
def double? : Datum → Option (Floating .binary64)
  | floating .double value => some value
  | floating .real value => some value.convert
  | whole _ value => some (Floating.ofInt value.value)
  | _ => none

/-- The whole number in this width, if it fits. -/
def ofWhole? (width : Width) (number : Int) : Option Datum :=
  (Whole.ofInt? width number).map (whole width)

/-- Whole numbers compare exactly whatever their widths, and in double precision as soon as one
operand is a floating-point number. NULL and values of unrelated kinds do not compare. -/
def order? : Datum → Datum → Option Ordering
  | boolean left, boolean right => some (compare left right)
  | text left, text right => some (compare left right)
  | bytes left, bytes right => some (compareOfLessAndEq left right)
  | left, right =>
      match left.whole?, right.whole? with
      | some first, some second => some (compare first second)
      | _, _ =>
          match left.double?, right.double? with
          | some first, some second => some (first.order second)
          | _, _ => none

/-- Both values are numbers and neither is a number on the line. -/
def bothNaN (left right : Datum) : Bool :=
  match left.double?, right.double? with
  | some first, some second => first.isNaN && second.isNaN
  | _, _ => false

/-- Equality of grouping keys: NULL equals NULL, and what is not a number equals its like. -/
def groupEqual : Datum → Datum → Bool
  | null, null => true
  | null, _ => false
  | _, null => false
  | left, right => bothNaN left right || left.order? right == some .eq

/-- The text a value converts to. -/
def toText : Datum → String
  | null => ""
  | boolean true => "t"
  | boolean false => "f"
  | whole _ value => writeInteger value.value
  | floating .double value => value.write
  | floating .real value => (value.convert : Floating .binary64).write
  | text value => value
  | bytes value => String.ofList ('\\' :: 'x' :: hexOfBytes value)

/-- The text a value has inside an expression or a row. -/
def describe : Datum → String
  | null => "NULL"
  | text value => "'" ++ value ++ "'"
  | other => other.toText

def kindName (value : Datum) : String :=
  match value.kind? with
  | some kind => kind.name
  | none => "unknown"

end Datum

end QueryExec
