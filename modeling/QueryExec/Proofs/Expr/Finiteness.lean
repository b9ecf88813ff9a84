import QueryExec.Proofs.Expr.Exactness
import QueryExec.Proofs.Floating.Narrowing

/-!
Floating-point arithmetic on finite operands. The result is checked in double precision, so a double
is finite or refused. A result of the narrower kind is rounded once more after the check, and between
the two bounds it becomes infinite and is not refused.
-/

namespace QueryExec

open Floating QueryExec.Action

def Datum.isFloating : Datum → Bool
  | floating _ _ => true
  | _ => false

namespace Arithmetic

/-- The exact result of an operator, where it does not divide by zero. -/
def exact (op : Arithmetic) (left right : ℚ) : ℚ :=
  match op with
  | add => left + right
  | sub => left - right
  | mul => left * right
  | div => left / right
  | mod => left - right * truncated (left / right)

/-- The operators on doubles, before what they come to is checked. -/
def onDoubles (op : Arithmetic) (left right : Floating .binary64) : Floating .binary64 :=
  match op with
  | add => left.add right
  | sub => left.sub right
  | mul => left.mul right
  | div => left.div right
  | mod => left.rem right

/-- A result that is finite in double precision is given in the precision, any other is refused. -/
def delivered (precision : Precision) (result : Floating .binary64) : Except ValueError Datum :=
  if result.isFinite = true then .ok (.inPrecision precision result)
  else .error (.overflow (.floating precision))

variable {op : Arithmetic} {precision : Precision} {left right : Floating .binary64}
  {first second : ℚ}

/-- An operator refuses a zero divisor and, where the operands are finite, a result that is not. -/
theorem on_floating_checked : op.onFloating precision left right =
    if op.divides && right.isZero then .error .divisionByZero
    else if left.isFinite && right.isFinite && !(op.onDoubles left right).isFinite then
      .error (.overflow (.floating precision))
    else .ok (.inPrecision precision (op.onDoubles left right)) := by
  cases op <;> cases precision <;> rfl

/-- Where the operands are finite the check refuses every other result that is not. -/
theorem on_floating_eq (finite : left.isFinite = true) (finite' : right.isFinite = true) :
    op.onFloating precision left right =
      if op.divides && right.isZero then .error .divisionByZero
      else delivered precision (op.onDoubles left right) := by
  rw [on_floating_checked, finite, finite', delivered]
  cases (op.onDoubles left right).isFinite <;> rfl

theorem on_doubles_rounds (ofLeft : left.Stands first) (ofRight : right.Stands second)
    (proper : ¬(op.divides = true ∧ second = 0)) :
    (op.onDoubles left right).Rounds (op.exact first second) := by
  cases op with
  | add => exact add_rounds ofLeft ofRight
  | sub => exact sub_rounds ofLeft ofRight
  | mul => exact mul_rounds ofLeft ofRight
  | div => exact div_rounds ofLeft ofRight fun zero => proper ⟨rfl, zero⟩
  | mod => exact rem_rounds ofLeft ofRight fun zero => proper ⟨rfl, zero⟩

/-- An operator on finite numbers divides by zero, or its exact result is rounded and delivered. -/
theorem on_floating_cases (op : Arithmetic) (precision : Precision) (ofLeft : left.Stands first)
    (ofRight : right.Stands second) :
    (op.divides = true ∧ second = 0 ∧ op.onFloating precision left right = .error .divisionByZero) ∨
      ¬(op.divides = true ∧ second = 0) ∧ ∃ result, result.Rounds (op.exact first second) ∧
        op.onFloating precision left right = delivered precision result := by
  have byZero : (op.divides && right.isZero) = true ↔ op.divides = true ∧ second = 0 :=
    (Bool.and_eq_true_iff).trans (and_congr_right' ofRight.is_zero_iff)
  rw [on_floating_eq ofLeft.is_finite ofRight.is_finite]
  by_cases zero : op.divides = true ∧ second = 0
  · exact .inl ⟨zero.1, zero.2, if_pos (byZero.mpr zero)⟩
  · exact .inr ⟨zero, _, on_doubles_rounds ofLeft ofRight zero, if_neg (byZero.not.mpr zero)⟩

theorem delivered_cases (precision : Precision) {result : Floating .binary64} {exact : ℚ}
    (rounds : result.Rounds exact) :
    (∃ number : Floating precision.format, number.isFinite = true ∧
      delivered precision result = .ok (.floating precision number) ∧ |exact| < precision.bound) ∨
    (delivered precision result = .ok (.floating precision (infinite (decide (exact < 0)))) ∧
      precision.bound ≤ |exact| ∧ |exact| < Precision.double.bound) ∨
    delivered precision result = .error (.overflow (.floating precision)) ∧
      Precision.double.bound ≤ |exact| := by
  unfold delivered
  rcases rounds.cases binary64_limit with ⟨finite, near⟩ | ⟨rfl, far⟩
  · rw [if_pos finite]
    rcases Datum.in_precision_cases precision rounds with ⟨number, ended, fits, bounded⟩ | ⟨ended, beyond⟩
    · exact .inl ⟨number, fits, congrArg Except.ok ended, bounded⟩
    · exact .inr (.inl ⟨congrArg Except.ok ended, beyond, near⟩)
  · rw [infinite_not_finite]
    exact .inr (.inr ⟨rfl, far⟩)

/-- Outside whole-number arithmetic the operands are taken in double precision. -/
theorem apply_floating {one other : Datum}
    (floating : one.isFloating = true ∨ other.isFloating = true) (ofLeft : one.double? = some left)
    (ofRight : other.double? = some right) :
    op.apply one other = op.onFloating (one.commonPrecision other) left right := by
  unfold apply
  split
  · rcases floating with impossible | impossible <;> cases impossible
  · rw [ofLeft, ofRight]

/-- How an operator on finite numbers ends, by what its exact result is. -/
inductive Ends (op : Arithmetic) (precision : Precision) (first second : ℚ) :
    Except Interrupt Datum → Prop
  | divided (divides : op.divides = true) (zero : second = 0) :
      Ends op precision first second (.error (.ofValue .divisionByZero))
  | overflowed (proper : ¬(op.divides = true ∧ second = 0))
      (far : Precision.double.bound ≤ |op.exact first second|) :
      Ends op precision first second (.error (.ofValue (.overflow (.floating precision))))
  | finite {number : Floating precision.format} (proper : ¬(op.divides = true ∧ second = 0))
      (near : |op.exact first second| < precision.bound) (fits : number.isFinite = true) :
      Ends op precision first second (.ok (.floating precision number))
  | infinite (proper : ¬(op.divides = true ∧ second = 0))
      (beyond : precision.bound ≤ |op.exact first second|)
      (near : |op.exact first second| < Precision.double.bound) :
      Ends op precision first second
        (.ok (.floating precision (infinite (decide (op.exact first second < 0)))))

theorem ends_on_floating (op : Arithmetic) (precision : Precision) (ofLeft : left.Stands first)
    (ofRight : right.Stands second) : op.Ends precision first second
      ((op.onFloating precision left right).mapError .ofValue) := by
  rcases on_floating_cases op precision ofLeft ofRight with
    ⟨divides, zero, ended⟩ | ⟨proper, result, rounds, ended⟩
  · rw [ended]
    exact .divided divides zero
  · rw [ended]
    rcases delivered_cases precision rounds with
      ⟨number, fits, given, near⟩ | ⟨given, beyond, near⟩ | ⟨given, far⟩
    · rw [given]
      exact .finite proper near fits
    · rw [given]
      exact .infinite proper beyond near
    · rw [given]
      exact .overflowed proper far

/-- The result is no finite number exactly between the two bounds, and these differ for the narrower
kind only. -/
theorem Ends.not_finite_iff {outcome : Except Interrupt Datum}
    (ends : op.Ends precision first second outcome) :
    (∃ kind, ∃ number : Floating (Precision.format kind),
      outcome = .ok (.floating kind number) ∧ number.isFinite = false) ↔
    precision = .real ∧ ¬(op.divides = true ∧ second = 0) ∧
      Precision.real.bound ≤ |op.exact first second| ∧
      |op.exact first second| < Precision.double.bound := by
  cases ends with
  | divided divides zero =>
      refine iff_of_false nofun ?_
      rintro ⟨-, proper, -⟩
      exact proper ⟨divides, zero⟩
  | overflowed proper far =>
      refine iff_of_false nofun ?_
      rintro ⟨-, -, -, near⟩
      exact absurd far (not_le.mpr near)
  | finite proper near fits =>
      refine iff_of_false ?_ ?_
      · rintro ⟨_, _, ⟨⟩, infinite⟩
        exact absurd (fits.symm.trans infinite) nofun
      · rintro ⟨rfl, -, beyond, -⟩
        exact absurd beyond (not_le.mpr near)
  | infinite proper beyond near =>
      cases precision with
      | double => exact absurd beyond (not_le.mpr near)
      | real => exact iff_of_true ⟨_, _, rfl, infinite_not_finite _⟩ ⟨rfl, proper, beyond, near⟩

end Arithmetic

namespace Expr

variable {scope : Scope} {left right : Expr} {one other : Datum} {start middle after : Journal}

theorem run_floating {first second : Floating .binary64} (op : Arithmetic)
    (ofLeft : (left.eval scope).run start = (.ok one, middle))
    (ofRight : (right.eval scope).run middle = (.ok other, after))
    (floating : one.isFloating = true ∨ other.isFloating = true)
    (number : one.double? = some first) (number' : other.double? = some second) :
    ((binary (.arithmetic op) left right).eval scope).run start =
      ((op.onFloating (one.commonPrecision other) first second).mapError .ofValue, after) := by
  have present : (one.isNull || other.isNull) = false :=
    Bool.or_eq_false_iff.mpr ⟨Datum.not_null_of_double number, Datum.not_null_of_double number'⟩
  have applied : (BinaryOp.arithmetic op).apply one other =
      op.onFloating (one.commonPrecision other) first second := by
    rw [← Arithmetic.apply_floating floating number number']
    exact if_neg (Bool.eq_false_iff.mp present)
  unfold eval
  rw [run_bind, ofLeft]
  dsimp only
  rw [run_bind, ofRight, ← applied]
  exact run_of_value _ after

/-- An operator on operands that evaluate to finite numbers, a floating-point one among them. A double
is finite, or the operator divides by zero or overflows. Of two operands of the narrower kind the
result becomes infinite, and is not refused, exactly where it rounds to infinity in that kind but does
not in double precision. -/
theorem floating_arithmetic_ends
    (ofLeft : (left.eval scope).run start = (.ok one, middle))
    (ofRight : (right.eval scope).run middle = (.ok other, after))
    (finite : one.isFiniteNumber = true) (finite' : other.isFiniteNumber = true)
    (floating : one.isFloating = true ∨ other.isFloating = true) (op : Arithmetic) :
    ∃ first second outcome, one.InDouble first ∧ other.InDouble second ∧
      ((binary (.arithmetic op) left right).eval scope).run start = (outcome, after) ∧
      op.Ends (one.commonPrecision other) first second outcome ∧
      ((∃ kind, ∃ number : Floating (Precision.format kind),
        outcome = .ok (.floating kind number) ∧ number.isFinite = false) ↔
          one.commonPrecision other = .real ∧ ¬(op.divides = true ∧ second = 0) ∧
            Precision.real.bound ≤ |op.exact first second| ∧
            |op.exact first second| < Precision.double.bound) := by
  obtain ⟨first, number, taken, stands⟩ := Datum.in_double_of_finite finite
  obtain ⟨second, number', taken', stands'⟩ := Datum.in_double_of_finite finite'
  have ends := Arithmetic.ends_on_floating op (one.commonPrecision other) stands stands'
  exact ⟨first, second, _, ⟨number, taken, stands⟩, ⟨number', taken', stands'⟩,
    run_floating op ofLeft ofRight floating taken taken', ends, ends.not_finite_iff⟩

end Expr

/-! The greatest number of the narrower kind, which doubled is far from the bound of double
precision. -/

namespace Extremes

/-- The greatest finite number of the narrower kind. -/
def greatest : Floating .binary32 :=
  .number false ⟨2139095039, by decide⟩

theorem greatest_in_double : (Datum.real greatest).InDouble (2 ^ 128 - 2 ^ 104) := by
  have last : Format.binary32.magnitude 2139095039 = ⟨2 ^ 24 - 1, 104⟩ := by decide
  have stands : greatest.Stands (2 ^ 128 - 2 ^ 104) := by
    refine ⟨false, _, rfl, by decide, ?_⟩
    rw [signed, Format.worth, last, Dyadic.worth]
    norm_num
  exact ⟨_, rfl, widen_stands stands⟩

/-- Its sum with itself is no finite number, and no error tells so. -/
theorem greatest_doubled_infinite :
    ∃ kind, ∃ number : Floating (Precision.format kind), number.isFinite = false ∧
      (((Expr.binary (.arithmetic .add) (.literal (.real greatest))
        (.literal (.real greatest))).eval scope).run {}).1 = .ok (.floating kind number) := by
  have literal : ((Expr.literal (.real greatest)).eval scope).run {} = (.ok (.real greatest), {}) :=
    rfl
  obtain ⟨first, second, outcome, ofFirst, ofSecond, ran, -, silent⟩ :=
    Expr.floating_arithmetic_ends literal literal (by decide) (by decide) (.inl rfl) .add
  obtain rfl := ofFirst.unique greatest_in_double
  obtain rfl := ofSecond.unique greatest_in_double
  have sum : |Arithmetic.add.exact (2 ^ 128 - 2 ^ 104) (2 ^ 128 - 2 ^ 104)| = 2 ^ 129 - 2 ^ 105 := by
    rw [Arithmetic.exact, abs_of_nonneg (by norm_num)]
    norm_num
  have beyond : Precision.real.bound ≤ 2 ^ 129 - 2 ^ 105 := by norm_num [Precision.bound]
  have near : (2 : ℚ) ^ 129 - 2 ^ 105 < Precision.double.bound :=
    (by norm_num : (2 : ℚ) ^ 129 - 2 ^ 105 < 2 ^ 129).trans_le (Precision.power_le_bound (by decide))
  rw [sum] at silent
  obtain ⟨kind, number, ended, infinite⟩ :=
    silent.mpr ⟨rfl, fun byZero => Bool.false_ne_true byZero.1, beyond, near⟩
  exact ⟨kind, number, infinite, (congrArg Prod.fst ran).trans ended⟩

end Extremes

end QueryExec
