import QueryExec.Conversion
import QueryExec.Expr

/-!
Operators on values. Whole-number arithmetic is done in 128 bits and then checked against the range
of its kind; floating-point arithmetic is in double precision and may not turn finite operands into an
infinite result; the connectives are three-valued.
-/

namespace QueryExec

/-- The result as a 128-bit integer, if it is one. -/
def Arithmetic.wide? (result : Int) : Option Int :=
  if Conversion.leastNumeral ≤ result ∧ result ≤ Conversion.greatestNumeral then some result
  else none

/-- The result, which must fit 128 bits and then the width. -/
def Arithmetic.onWhole (op : Arithmetic) (width : Width) (left right : Int) :
    Except ValueError Datum :=
  let checked (result : Int) : Except ValueError Datum :=
    match (wide? result).bind (Datum.ofWhole? width) with
    | some value => .ok value
    | none => .error (.overflow (.whole width))
  match op with
  | add => checked (left + right)
  | sub => checked (left - right)
  | mul => checked (left * right)
  | div => if right = 0 then .error .divisionByZero else checked (left.tdiv right)
  | mod => if right = 0 then .error .divisionByZero else checked (left.tmod right)

/-- The result in double precision, narrowed when both operands were narrow. -/
def Arithmetic.onFloating (op : Arithmetic) (precision : Precision)
    (left right : Floating .binary64) : Except ValueError Datum :=
  let checked (result : Floating .binary64) : Except ValueError Datum :=
    if left.isFinite && right.isFinite && !result.isFinite then
      .error (.overflow (.floating precision))
    else
      match precision with
      | .real => .ok (.real result.convert)
      | .double => .ok (.double result)
  match op with
  | add => checked (left.add right)
  | sub => checked (left.sub right)
  | mul => checked (left.mul right)
  | div => if right.isZero then .error .divisionByZero else checked (left.div right)
  | mod => if right.isZero then .error .divisionByZero else checked (left.rem right)

/-- The precision of a result with at least one floating-point operand. -/
def Datum.commonPrecision : Datum → Datum → Precision
  | floating .real _, floating .real _ => .real
  | _, _ => .double

/-- Arithmetic on two values that are not NULL. -/
def Arithmetic.apply (op : Arithmetic) (left right : Datum) : Except ValueError Datum :=
  match left, right with
  | .whole first leftValue, .whole second rightValue =>
      op.onWhole (first.stronger second) leftValue.value rightValue.value
  | _, _ =>
      match left.double?, right.double? with
      | some first, some second => op.onFloating (left.commonPrecision right) first second
      | _, _ => .error (.typeMismatch left.kindName right.kindName)

def Comparison.holds : Comparison → Ordering → Bool
  | eq, ordering => ordering.isEq
  | ne, ordering => ordering.isNe
  | lt, ordering => ordering.isLT
  | le, ordering => ordering.isLE
  | gt, ordering => ordering.isGT
  | ge, ordering => ordering.isGE

/-- Comparison of two values that are not NULL. -/
def Comparison.apply (op : Comparison) (left right : Datum) : Except ValueError Datum :=
  match left.order? right with
  | some ordering => .ok (.boolean (op.holds ordering))
  | none => .error (.typeMismatch left.kindName right.kindName)

/-- A truth value, where NULL is unknown. -/
def Datum.truth? : Datum → Except ValueError (Option Bool)
  | null => .ok none
  | boolean value => .ok (some value)
  | other => .error (.typeMismatch "boolean" other.kindName)

def Datum.ofTruth : Option Bool → Datum
  | some value => boolean value
  | none => null

/-- FALSE decides a conjunction and TRUE a disjunction, whatever the other operand. -/
def Connective.combine : Connective → Option Bool → Option Bool → Option Bool
  | and, some false, _ => some false
  | and, _, some false => some false
  | and, some true, some true => some true
  | or, some true, _ => some true
  | or, _, some true => some true
  | or, some false, some false => some false
  | _, _, _ => none

def BinaryOp.apply (op : BinaryOp) (left right : Datum) : Except ValueError Datum :=
  match op with
  | connective op => do
      let first ← left.truth?
      let second ← right.truth?
      .ok (Datum.ofTruth (op.combine first second))
  | arithmetic op =>
      if left.isNull || right.isNull then .ok .null else op.apply left right
  | comparison op =>
      if left.isNull || right.isNull then .ok .null else op.apply left right

/-- The additive inverse in the kind of the value. -/
def Datum.negate : Datum → Except ValueError Datum
  | null => .ok null
  | floating precision value => .ok (floating precision value.neg)
  | whole width value =>
      match ofWhole? width (-value.value) with
      | some negated => .ok negated
      | none => .error (.overflow (.whole width))
  | other => .error (.typeMismatch "numeric" other.kindName)

def Datum.invert (value : Datum) : Except ValueError Datum := do
  let truth ← value.truth?
  .ok (Datum.ofTruth (truth.map (!·)))

/-- The number of ones in the binary expansion. -/
def ones (number : Nat) : Nat :=
  if number = 0 then 0 else number % 2 + ones (number / 2)

theorem ones_le (number bits : Nat) (bounded : number < Nat.pow 2 bits) :
    ones number ≤ bits := by
  induction bits generalizing number with
  | zero =>
      have isZero : number = 0 := Nat.lt_one_iff.1 bounded
      simp [isZero, ones]
  | succ bits induction =>
      unfold ones
      split
      · omega
      · have doubled : number < Nat.pow 2 bits * 2 := bounded
        have half := induction (number / 2) (by omega)
        omega

/-- The complement of a 64-bit pattern. -/
def Whole.complement (pattern : Whole .ubigint) : Whole .ubigint :=
  ⟨18446744073709551615 - pattern.value, by
    have bound := pattern.le_highest
    simp only [Width.lowest, Width.highest] at *
    omega, by
    have bound := pattern.lowest_le
    simp only [Width.lowest, Width.highest] at *
    omega⟩

/-- The number of ones in a 64-bit pattern. -/
def Whole.popCount (pattern : Whole .ubigint) : Whole .bigint :=
  ⟨ones pattern.value.toNat, by
    simp only [Width.lowest]
    omega, by
    have bounded : pattern.value.toNat < Nat.pow 2 64 := by
      have bound := pattern.le_highest
      simp only [Width.highest] at bound
      show pattern.value.toNat < 18446744073709551616
      omega
    have count := ones_le _ _ bounded
    simp only [Width.highest]
    omega⟩

end QueryExec
